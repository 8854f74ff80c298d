/-
A document taken in as one row of tasks.

The flag by which a scaffold knows that its line has placed a task already
is no more than a comparison with the line of the last task, so lines can
be taken in statement by statement, each in its place, and empty lines not
at all. The guards can then be told apart from the tasks: whether they are
as they should be is a property of the row of statements alone, and what
remains is a row of tasks to be placed one after another.
-/
import TaskTree.Proofs.Outline.Collected
import TaskTree.Proofs.Outline.Declared

namespace TaskTree.Outline

variable {E T : Type} [Behavior E T] {dialect : Dialect T}

namespace Scaffold

-- ================================================= statements in their place

/-- A scaffold within a line, where `last` is the line of the last task. -/
def within (last : Option Nat) (line indent : Nat) (s : Scaffold T) :
    Scaffold T :=
  { s with indent, placed := last = some line }

/-- Takes in a statement in its place. -/
def takePlaced (dialect : Dialect T) (last : Option Nat) (x : Placed)
    (s : Scaffold T) :
    Except BuildFault (Scaffold T) :=
  (s.within last x.line x.indent).take dialect x.statement

/-- The line of the last task after a statement. -/
def lineAfter (last : Option Nat) (x : Placed) : Option Nat :=
  if x.statement.isGuard then last else some x.line

/-- Takes in statements in their places. -/
def takeAll (dialect : Dialect T) : Option Nat → List Placed → Scaffold T →
    Except BuildFault (Scaffold T)
  | _, [], s => .ok s
  | last, x :: rest, s =>
    s.takePlaced dialect last x >>= takeAll dialect (lineAfter last x) rest

/-- Statements in two parts; the second part begins behind the last task of the
first. -/
theorem takeAll_append (last : Option Nat) (before after : List Placed)
    (s : Scaffold T) :
    s.takeAll dialect last (before ++ after)
      = s.takeAll dialect last before
        >>= takeAll dialect (before.foldl lineAfter last) after := by
  induction before generalizing last s with
  | nil => rfl
  | cons x before ih =>
      rw [List.cons_append, takeAll, takeAll, bind_assoc]
      congr 1
      funext s
      exact ih (lineAfter last x) s

/-- Taking no guard away changes nothing. -/
theorem withoutGuard_self {s : Scaffold T} (h : s.guard = none) :
    { s with guard := none } = s := by
  obtain ⟨frames, root, hasRoot, indent, placed, guard, current⟩ := s
  cases h
  rfl

/-- A computation that gives a value goes on with it. -/
theorem bind_eq_ok_of {ε α β : Type} {x : Except ε α} {f : α → Except ε β}
    {a : α} {y : β} (hx : x = .ok a) (hf : f a = .ok y) : x >>= f = .ok y := by
  rw [hx]
  exact hf

/-- A task that is placed leaves no guard behind. -/
theorem place_guard {s s' : Scaffold T} {b : Blueprint T}
    (h : ({ s with guard := none } : Scaffold T).makeRoom
      >>= (fun s₁ => s₁.openTask b) = .ok s') :
    s'.guard = none := by
  obtain ⟨s₁, hroom, hopen⟩ := bind_eq_ok h
  exact (openTask_keeps hopen).2.1.trans (makeRoom_keeps hroom).2.1

/-- Writing down the place that is there changes nothing. -/
theorem withPlace_self {s : Scaffold T} {indent : Nat} {placed : Bool}
    (hindent : s.indent = indent) (hplaced : s.placed = placed) :
    { s with indent, placed } = s := by
  cases hindent
  cases hplaced
  rfl

/-- Within a line the flag of the scaffold says whether the last task is on this
line. By induction on the statements of the line. The flag is up when a task has
been placed on this line, and then the last task is one of it. -/
theorem foldlM_take_eq_takeAll {number indent : Nat}
    {statements : List Statement} {last : Option Nat} {s : Scaffold T}
    (hindent : s.indent = indent)
    (hplaced : s.placed = decide (last = some number)) :
    statements.foldlM (fun s statement => s.take dialect statement) s
      = s.takeAll dialect last
        (Line.spread number { indent, statements }) := by
  induction statements generalizing last s with
  | nil => rfl
  | cons statement statements ih =>
      have hself : s.takePlaced dialect last
          { line := number, indent, statement }
          = s.take dialect statement :=
        congrArg (take dialect statement) (withPlace_self hindent hplaced)
      have hspread : Line.spread number
          { indent, statements := statement :: statements }
          = { line := number, indent, statement }
            :: Line.spread number { indent, statements } := rfl
      rw [List.foldlM_cons, hspread, takeAll, hself]
      cases htaken : s.take dialect statement with
      | error fault => rfl
      | ok s₁ =>
          -- A statement that is taken leaves the indentation alone, and raises
          -- the flag if it is a task.
          obtain ⟨hindent₁, -, hplaced₁⟩ := take_keeps htaken
          refine ih (hindent₁.trans hindent) ?_
          rw [hplaced₁, hplaced]
          unfold lineAfter
          cases statement.isGuard with
          | true => rfl
          | false => exact (decide_eq_true rfl).symm

/-- The indentation of the line and its flag are of no more use when the
document has come to its end or to another statement. -/
theorem takeAll_finish_withPlace (last : Option Nat) (row : List Placed)
    (s : Scaffold T) (indent : Nat) (placed : Bool) :
    ({ s with indent, placed } : Scaffold T).takeAll dialect last row >>= finish
      = s.takeAll dialect last row >>= finish := by
  cases row with
  | nil => rfl
  | cons x row => rfl

/-- Behind a line the last task stands on it or on an earlier one. -/
theorem foldl_lineAfter_lt {number : Nat} (line : Line) {last : Option Nat}
    (h : ∀ m, last = some m → m < number + 1) :
    ∀ m, (line.spread number).foldl lineAfter last = some m →
      m < number + 1 := by
  unfold Line.spread
  induction line.statements generalizing last with
  | nil => exact h
  | cons statement statements ih =>
      rw [List.map_cons, List.foldl_cons]
      refine ih fun m hm => ?_
      unfold lineAfter at hm
      split at hm
      · exact h m hm
      · cases hm
        exact Nat.lt_succ_self _

/-- Lines are taken in as the row of their statements. By induction on the
lines. The last task stands on an earlier line than the next statement, so that
the flag of the scaffold is down at the beginning of each line. -/
theorem takeLines_finish (lines : List Line) {number : Nat} {last : Option Nat}
    (hlast : ∀ m, last = some m → m < number) (s : Scaffold T) :
    s.takeLines dialect lines >>= finish
      = s.takeAll dialect last (spread number lines) >>= finish := by
  induction lines generalizing number last s with
  | nil => rfl
  | cons line lines ih =>
      have hne : last ≠ some number := fun h => Nat.lt_irrefl _ (hlast _ h)
      have hline : s.takeLine dialect line
          = ({ s with indent := line.indent, placed := false } :
            Scaffold T).takeAll dialect last
            (line.spread number) :=
        foldlM_take_eq_takeAll rfl (decide_eq_false hne).symm
      have hlast' :=
        foldl_lineAfter_lt line fun m hm => Nat.lt_succ_of_lt (hlast m hm)
      have hsplit : s.takeLines dialect (line :: lines)
          = s.takeLine dialect line >>= fun s => s.takeLines dialect lines :=
        rfl
      -- The scaffold in which a line begins differs in place only, and the end
      -- of the text does not ask for that.
      rw [hsplit, hline, spread,
        ← takeAll_finish_withPlace last _ s line.indent false, takeAll_append,
        bind_assoc, bind_assoc]
      congr 1
      funext s
      exact ih hlast' s

-- ====================================================== guards and tasks

/-- The guards of a row of statements are as they should be, where
`waiting` is the guard that waits for the first statement. -/
def Admits : Option (Blueprint T) → List (Sited T) → Prop
  | waiting, [] => waiting = none
  | waiting, x :: rest =>
    (waiting = none ∨ x.node.guard = none)
      ∧ (x.isGuard = true → x.node.arity.least ≤ x.node.children.length)
      ∧ Admits (if x.isGuard then some (x.node.guardedBy waiting) else none)
        rest

/-- A guard in a row: it takes the guard that waits, has children enough, and
waits for what follows. -/
theorem admits_cons_of_guard {x : Sited T} (h : x.isGuard = true)
    {waiting : Option (Blueprint T)} {doc : List (Sited T)} :
    Admits waiting (x :: doc) ↔
      (waiting = none ∨ x.node.guard = none)
        ∧ x.node.arity.least ≤ x.node.children.length
        ∧ Admits (some (x.node.guardedBy waiting)) doc := by
  rw [Admits, if_pos h]
  constructor
  · intro h
    obtain ⟨hfree, hready, hrest⟩ := h
    exact ⟨hfree, hready h, hrest⟩
  · intro h
    obtain ⟨hfree, hready, hrest⟩ := h
    exact ⟨hfree, fun _ => hready, hrest⟩

/-- A task in a row: it takes the guard that waits, and none waits after it. -/
theorem admits_cons_of_task {x : Sited T} (h : x.isGuard = false)
    {waiting : Option (Blueprint T)} {doc : List (Sited T)} :
    Admits waiting (x :: doc) ↔
      (waiting = none ∨ x.node.guard = none) ∧ Admits none doc := by
  rw [Admits, h, if_neg Bool.false_ne_true]
  constructor
  · intro h
    obtain ⟨hfree, -, hrest⟩ := h
    exact ⟨hfree, hrest⟩
  · intro h
    obtain ⟨hfree, hrest⟩ := h
    exact ⟨hfree, fun hguard => absurd hguard Bool.false_ne_true, hrest⟩

/-- No guard comes last in a row, if none does behind its first statement. -/
theorem getLast?_cons_isGuard {x : Sited T} {doc : List (Sited T)} :
    (∀ z, (x :: doc).getLast? = some z → z.isGuard = false) ↔
      (doc = [] → x.isGuard = false)
        ∧ ∀ z, doc.getLast? = some z → z.isGuard = false := by
  cases doc with
  | nil =>
      constructor
      · intro h
        exact ⟨fun _ => h x rfl, fun z hz => by cases hz⟩
      · rintro ⟨h, -⟩ z hz
        cases hz
        exact h rfl
  | cons y doc =>
      rw [List.getLast?_cons_cons]
      exact ⟨fun h => ⟨(fun hnil => by cases hnil), h⟩, fun h => h.2⟩

/-- What it takes for the guards to be as they should be. By induction on the
row; the guard that waits is another one for every statement. -/
theorem admits_iff {doc : List (Sited T)} {waiting : Option (Blueprint T)} :
    Admits waiting doc ↔
      (waiting ≠ none → ∃ x, doc.head? = some x ∧ x.node.guard = none)
        ∧ (∀ x, doc.getLast? = some x → x.isGuard = false)
        ∧ (doc.IsChain fun x y => x.isGuard = true → y.node.guard = none)
        ∧ ∀ x ∈ doc, x.isGuard = true →
          x.node.arity.least ≤ x.node.children.length := by
  induction doc generalizing waiting with
  | nil =>
      rw [Admits]
      constructor
      · intro hnone
        exact ⟨fun hsome => absurd hnone hsome, (fun x hx => by cases hx), .nil,
          fun x hx => absurd hx List.not_mem_nil⟩
      -- Nothing follows that the waiting guard could belong to.
      · intro h
        obtain ⟨hwaiting, -⟩ := h
        by_contra hsome
        obtain ⟨x, hx, -⟩ := hwaiting hsome
        cases hx
  | cons x doc ih =>
      -- What is asked of a guard that waits is asked of the first statement
      -- only.
      have hfirst :
          (waiting ≠ none →
            ∃ y, (x :: doc).head? = some y ∧ y.node.guard = none) ↔
          (waiting = none ∨ x.node.guard = none) := by
        constructor
        · intro h
          by_cases hnone : waiting = none
          · exact .inl hnone
          · obtain ⟨y, hy, hguard⟩ := h hnone
            cases hy
            exact .inr hguard
        · rintro (hnone | hguard) hsome
          · exact absurd hnone hsome
          · exact ⟨x, rfl, hguard⟩
      rw [hfirst, getLast?_cons_isGuard, List.isChain_cons,
        List.forall_mem_cons]
      -- After a guard the next statement must be there and be free for it.
      -- After a task nothing is asked of it.
      cases hguard : x.isGuard with
      | true =>
          -- A guard: the next statement must take it, and nothing waits for
          -- this one anymore.
          rw [admits_cons_of_guard hguard, ih]
          constructor
          · intro h
            obtain ⟨hfree, hready, hnext, hclosed, hchain, hall⟩ := h
            obtain ⟨y, hy, hnone⟩ := hnext (Option.some_ne_none _)
            refine ⟨hfree, ⟨fun hnil => ?_, hclosed⟩,
              ⟨fun z hz _ => ?_, hchain⟩, fun _ => hready, hall⟩
            · rw [hnil] at hy
              cases hy
            · rw [Option.mem_def, hy] at hz
              cases hz
              exact hnone
          · intro h
            obtain ⟨hfree, ⟨hnonempty, hclosed⟩, ⟨hnext, hchain⟩, hready,
              hall⟩ := h
            refine ⟨hfree, hready rfl, fun _ => ?_, hclosed, hchain, hall⟩
            cases doc with
            | nil => cases hnonempty rfl
            | cons y doc => exact ⟨y, rfl, hnext y rfl rfl⟩
      | false =>
          -- A task takes what waits for it.
          rw [admits_cons_of_task hguard, ih]
          constructor
          · intro h
            obtain ⟨hfree, -, hclosed, hchain, hall⟩ := h
            exact ⟨hfree, ⟨fun _ => rfl, hclosed⟩,
              ⟨fun z _ htrue => absurd htrue Bool.false_ne_true, hchain⟩,
              fun htrue => absurd htrue Bool.false_ne_true, hall⟩
          · intro h
            obtain ⟨hfree, ⟨-, hclosed⟩, ⟨-, hchain⟩, -, hall⟩ := h
            exact ⟨hfree, fun hsome => absurd rfl hsome, hclosed, hchain, hall⟩

/-- Places tasks one after another, where `last` is the line of the last
one. -/
def placeAll :
    Option Nat → List (Sited T) → Scaffold T → Except BuildFault (Scaffold T)
  | _, [], s => .ok s
  | last, x :: rest, s =>
    ((s.within last x.line x.indent).makeRoom >>= fun s => s.openTask x.node)
      >>= placeAll (some x.line) rest

/-- The indentation of the line and its flag are of no more use when the next
task is placed. -/
theorem placeAll_finish_withPlace (last : Option Nat) (row : List (Sited T))
    (s : Scaffold T) (indent : Nat) (placed : Bool) :
    ({ s with indent, placed } : Scaffold T).placeAll last row >>= finish
      = s.placeAll last row >>= finish := by
  cases row with
  | nil => rfl
  | cons x row => rfl

/-- A waiting guard is set on a task that has none of its own. By the two
guards: that which waits, and the one that the task brings along. Only both
together are refused. -/
theorem withGuard_eq_ok_iff {s : Scaffold T} {b node : Blueprint T} :
    s.withGuard b = .ok node ↔
      (s.guard = none ∨ b.guard = none) ∧ node = b.guardedBy s.guard := by
  unfold withGuard Blueprint.setGuard
  cases s.guard with
  | none =>
      constructor
      · intro h
        cases h
        exact ⟨.inl rfl, rfl⟩
      · intro h
        obtain ⟨-, rfl⟩ := h
        rfl
  | some guard =>
      cases b.guard with
      | none =>
          constructor
          · intro h
            cases h
            exact ⟨.inr rfl, rfl⟩
          · intro h
            obtain ⟨-, rfl⟩ := h
            rfl
      | some own =>
          constructor
          · intro h
            cases h
          · intro h
            obtain ⟨hnone | hnone, -⟩ := h
            · cases hnone
            · cases hnone

/-- A guard that is taken in waits. -/
theorem take_guard_eq_ok_iff {statement : Statement}
    (hguard : statement.isGuard = true) {s s' : Scaffold T} :
    s.take dialect statement = .ok s' ↔
      ∃ b, dialect.build statement = .ok b ∧ (s.guard = none ∨ b.guard = none)
        ∧ b.arity.least ≤ b.children.length
        ∧ s' = { s with guard := some (b.guardedBy s.guard) } := by
  constructor
  -- A taken guard was built, was free, and is complete.
  · intro h
    unfold take at h
    obtain ⟨b, hb, h⟩ := bind_eq_ok h
    obtain ⟨node, hnode, h⟩ := bind_eq_ok h
    obtain ⟨hfree, rfl⟩ := withGuard_eq_ok_iff.1 hnode
    rw [if_pos hguard] at h
    obtain ⟨⟨⟩, hready, h⟩ := bind_eq_ok h
    cases h
    have hready := ensureChildren_eq_ok_iff.1 hready
    unfold Blueprint.arity at hready
    rw [Blueprint.guardedBy_task, Blueprint.guardedBy_children] at hready
    exact ⟨b, hb, hfree, hready, rfl⟩
  -- A guard of that kind is taken.
  · intro h
    obtain ⟨b, hb, hfree, hready, rfl⟩ := h
    have hready' : ensureChildren (b.guardedBy s.guard) = .ok () := by
      refine ensureChildren_eq_ok_iff.2 ?_
      unfold Blueprint.arity
      rw [Blueprint.guardedBy_task, Blueprint.guardedBy_children]
      exact hready
    unfold take
    rw [hb]
    simp only [bind, Except.bind]
    rw [withGuard_eq_ok_iff.2 ⟨hfree, rfl⟩]
    dsimp only
    rw [if_pos hguard, hready']
    rfl

/-- A task that is taken in is placed with the guard that waited for it. -/
theorem take_task_eq_ok_iff {statement : Statement}
    (htask : statement.isGuard = false) {s s' : Scaffold T} :
    s.take dialect statement = .ok s' ↔
      ∃ b, dialect.build statement = .ok b ∧ (s.guard = none ∨ b.guard = none)
        ∧ ({ s with guard := none } : Scaffold T).makeRoom
          >>= (fun s₁ => s₁.openTask (b.guardedBy s.guard)) = .ok s' := by
  constructor
  -- Likewise for a task, which is placed at once.
  · intro h
    unfold take at h
    obtain ⟨b, hb, h⟩ := bind_eq_ok h
    obtain ⟨node, hnode, h⟩ := bind_eq_ok h
    obtain ⟨hfree, rfl⟩ := withGuard_eq_ok_iff.1 hnode
    rw [htask] at h
    exact ⟨b, hb, hfree, h⟩
  · intro h
    obtain ⟨b, hb, hfree, h⟩ := h
    unfold take
    rw [hb]
    simp only [bind, Except.bind]
    rw [withGuard_eq_ok_iff.2 ⟨hfree, rfl⟩]
    dsimp only
    rw [htask]
    exact h

/-- A row of statements builds when each of them does. -/
theorem mapM_site_cons_eq_ok_iff {x : Placed} {row : List Placed}
    {doc : List (Sited T)} :
    (x :: row).mapM dialect.site = .ok doc ↔
      ∃ b doc', dialect.build x.statement = .ok b
        ∧ row.mapM dialect.site = .ok doc'
        ∧ doc = x.sited b :: doc' := by
  rw [List.mapM_cons]
  unfold Dialect.site
  cases dialect.build x.statement with
  | error fault =>
      constructor
      · intro h
        cases h
      · intro h
        obtain ⟨b, doc', hb, -⟩ := h
        cases hb
  | ok b =>
      show (row.mapM dialect.site >>= fun doc' => pure (x.sited b :: doc'))
          = .ok doc ↔ _
      constructor
      · intro h
        obtain ⟨doc', hdoc', h⟩ := bind_eq_ok h
        cases h
        exact ⟨b, doc', rfl, hdoc', rfl⟩
      · intro h
        obtain ⟨b', doc', hb', hdoc', rfl⟩ := h
        cases hb'
        exact (congrArg (· >>= fun doc' => pure (x.sited b :: doc')) hdoc' :)

/-- A row of statements gives a tree exactly if all of them build, the
guards are as they should be, and the tasks give that tree. -/
def Parts (dialect : Dialect T) (row : List Placed) : Prop :=
  ∀ (last : Option Nat) (s : Scaffold T) (root : Blueprint T),
    s.takeAll dialect last row >>= finish = .ok root ↔
      ∃ doc, row.mapM dialect.site = .ok doc ∧ Admits s.guard doc
        ∧ ({ s with guard := none } : Scaffold T).placeAll last
          (tasks s.guard doc) >>= finish
          = .ok root

/-- Nothing more to take: the scaffold must not have a guard that waits. At the
end of the text no guard may wait, and the tasks are finished as they are. -/
theorem Parts.nil : Parts dialect [] := by
  intro last s root
  constructor
  · intro h
    have hnone : s.guard = none := by
      cases hguard : s.guard with
      | none => rfl
      -- A guard that waits would be refused.
      | some guard =>
          have h : s.finish = .ok root := h
          unfold finish at h
          rw [hguard] at h
          cases h
    refine ⟨[], rfl, hnone, ?_⟩
    rw [withoutGuard_self hnone]
    exact h
  · intro h
    obtain ⟨doc, hdoc, hnone, h⟩ := h
    cases hdoc
    rw [withoutGuard_self hnone] at h
    exact h

/-- A guard is built and waits, whatever comes after it; the tasks of the row
are those behind it. From the scaffold to the row, where the statement builds
because it was taken; and back, where it is taken because it builds. -/
theorem Parts.cons_of_guard {x : Placed} {row : List Placed}
    (hguard : x.statement.isGuard = true) (ih : Parts dialect row) :
    Parts dialect (x :: row) := by
  intro last s root
  have hsplit : s.takeAll dialect last (x :: row) >>= finish
      = (s.within last x.line x.indent).take dialect x.statement
        >>= fun s₁ => s₁.takeAll dialect (lineAfter last x) row >>= finish :=
    bind_assoc ..
  have hline : lineAfter last x = last := if_pos hguard
  rw [hsplit, hline]
  constructor
  · intro h
    obtain ⟨s₁, htake, h⟩ := bind_eq_ok h
    obtain ⟨b, hb, hfree, hready, rfl⟩ := (take_guard_eq_ok_iff hguard).1 htake
    obtain ⟨doc, hdoc, hadmits, h⟩ := (ih last _ root).1 h
    refine ⟨x.sited b :: doc,
      mapM_site_cons_eq_ok_iff.2 ⟨b, doc, hb, hdoc, rfl⟩,
      (admits_cons_of_guard hguard).2 ⟨hfree, hready, hadmits⟩, ?_⟩
    rw [tasks_cons_of_guard hguard,
      ← placeAll_finish_withPlace last _ _ x.indent]
    exact h
  · intro h
    obtain ⟨doc, hdoc, hadmits, h⟩ := h
    obtain ⟨b, doc, hb, hrow, rfl⟩ := mapM_site_cons_eq_ok_iff.1 hdoc
    obtain ⟨hfree, hready, hadmits⟩ := (admits_cons_of_guard hguard).1 hadmits
    have htake : (s.within last x.line x.indent).take dialect x.statement
        = .ok { s.within last x.line x.indent with
                guard := some (b.guardedBy s.guard) } :=
      (take_guard_eq_ok_iff hguard).2 ⟨b, hb, hfree, hready, rfl⟩
    rw [tasks_cons_of_guard hguard,
      ← placeAll_finish_withPlace last _ _ x.indent (last = some x.line)] at h
    rw [htake]
    exact (ih last _ root).2 ⟨doc, hrow, hadmits, h⟩

/-- A task is built, takes the guard that waits, and is placed. -/
theorem Parts.cons_of_task {x : Placed} {row : List Placed}
    (htask : x.statement.isGuard = false) (ih : Parts dialect row) :
    Parts dialect (x :: row) := by
  intro last s root
  have hsplit : s.takeAll dialect last (x :: row) >>= finish
      = (s.within last x.line x.indent).take dialect x.statement
        >>= fun s₁ => s₁.takeAll dialect (lineAfter last x) row >>= finish :=
    bind_assoc ..
  have hline : lineAfter last x = some x.line :=
    if_neg (by rw [htask]; exact Bool.false_ne_true)
  rw [hsplit, hline]
  -- As for a guard, but now the task is placed before the rest of the row is
  -- looked at.
  constructor
  · intro h
    obtain ⟨s₁, htake, h⟩ := bind_eq_ok h
    obtain ⟨b, hb, hfree, hplace⟩ := (take_task_eq_ok_iff htask).1 htake
    obtain ⟨doc, hdoc, hadmits, h⟩ := (ih (some x.line) _ root).1 h
    -- No guard waits behind a task.
    have hnone := place_guard hplace
    rw [withoutGuard_self hnone, hnone] at h
    rw [hnone] at hadmits
    refine ⟨x.sited b :: doc,
      mapM_site_cons_eq_ok_iff.2 ⟨b, doc, hb, hdoc, rfl⟩,
      (admits_cons_of_task htask).2 ⟨hfree, hadmits⟩, ?_⟩
    rw [tasks_cons_of_task htask, placeAll, bind_assoc]
    exact bind_eq_ok_of hplace h
  · intro h
    obtain ⟨doc, hdoc, hadmits, h⟩ := h
    obtain ⟨b, doc, hb, hrow, rfl⟩ := mapM_site_cons_eq_ok_iff.1 hdoc
    obtain ⟨hfree, hadmits⟩ := (admits_cons_of_task htask).1 hadmits
    -- The rest is placed in the scaffold that the task leaves.
    rw [tasks_cons_of_task htask, placeAll, bind_assoc] at h
    obtain ⟨s₁, hopen, h⟩ := bind_eq_ok h
    have hplace :
        ({ s.within last x.line x.indent with guard := none } :
          Scaffold T).makeRoom
        >>= (fun s₁ => s₁.openTask (b.guardedBy s.guard)) = .ok s₁ := hopen
    have hnone := place_guard hplace
    have htake : (s.within last x.line x.indent).take dialect
        x.statement = .ok s₁ :=
      (take_task_eq_ok_iff htask).2 ⟨b, hb, hfree, hplace⟩
    rw [htake]
    refine (ih (some x.line) _ root).2 ⟨doc, hrow, ?_, ?_⟩
    · rw [hnone]
      exact hadmits
    · rw [withoutGuard_self hnone, hnone]
      exact h

/-- Guards and tasks can be told apart in every row of statements. -/
theorem parts (dialect : Dialect T) (row : List Placed) :
    Parts dialect row := by
  induction row with
  | nil => exact .nil
  | cons x row ih =>
      cases hguard : x.statement.isGuard with
      | true => exact .cons_of_guard hguard ih
      | false => exact .cons_of_task hguard ih

end Scaffold

end TaskTree.Outline
