/-
A parent and its children, in an arena and in the direct evaluation.

While a parent runs its children it is out of its slot, and each child's
outcome comes to it through its inbox. The lemmas here assume of every
child that its turn in the arena is its turn in the direct evaluation
(`Simulates`), and conclude the same of the stretch from a parent's hook to
its return: of one child (`runChild_settles`), of a row of children
(`row_settles`) and of the report at the end (`report_rests`).

The invariant that carries a row is `Busy`: between two children the
parent's slot is always the same, the inbox is empty, and the parent has
not reported.
-/
import TaskTree.Proofs.Direct.Report

namespace TaskTree.Direct

open Arena Live

variable {E A : Type}

-- ============================================================ the setting

/-- Nothing is going on in the slots of `area`: no fault is aborting the
step, the guard evaluator is idle, and the handles of the area are handles
of different tasks. -/
structure Quiet (a : Arena E (Stock E A)) (area : List TaskId) : Prop where
  fault : a.fault = none
  idle : Idle a
  hidden : TaskId.evaluator ∉ area
  nodup : area.Nodup

/-- A smaller area is quiet as well. -/
theorem Quiet.part {a : Arena E (Stock E A)} {area part : List TaskId}
    (h : Quiet a area) (hpart : part.Sublist area) : Quiet a part :=
  ⟨h.fault, h.idle, fun hmem => h.hidden (hpart.subset hmem),
    h.nodup.sublist hpart⟩

/-- The setting is still quiet after an effect that left no fault. -/
theorem Quiet.after {base : List (Listener × Notice)}
    {a a₁ : Arena E (Stock E A)} {area area' : List TaskId} {w : World E}
    (h : Quiet a area) (hsub : area' ⊆ area)
    (heffect : Effect base area' none w a a₁) : Quiet a₁ area :=
  ⟨heffect.fault, heffect.idle (fun hmem => h.hidden (hsub hmem)) h.idle,
    h.hidden, h.nodup⟩

/-- The slot `s` of a task that is out of it, in the middle of a hook: it
has not reported, and it has answered all its children. -/
structure Busy (a : Arena E (Stock E A)) (role : Role) (id : TaskId)
    (s : Slot (Stock E A)) (children : List (Live E A)) : Prop where
  slot : a.slot? id = some s
  away : s.occupant = none
  inbox : s.inbox = []
  reports : s.reports = 0
  control : s.control = some role.control
  distinct : (children.map Live.id).Nodup
  children : s.children = children.map Live.id

/-- The children of a busy task are those of the tree it is read from. -/
theorem Busy.childrenOf {a : Arena E (Stock E A)} {role : Role} {id : TaskId}
    {s : Slot (Stock E A)} {children : List (Live E A)}
    (h : Busy a role id s children) :
    a.childrenOf id = children.map Live.id := by
  unfold Arena.childrenOf
  rw [h.slot, ← h.children]
  rfl

/-- The fault of a result, if it is one. -/
def faultOf {α : Type} : Except Fault α → Option Fault
  | .ok _ => none
  | .error fault => some fault

/-- The slot of a task that is back in it. -/
def rested (s : Slot (Stock E A)) (task : Stock E A) :
    Except Fault Outcome → Slot (Stock E A)
  | .ok outcome =>
    { s with occupant := some (.task task), status := outcome.status,
             reports := 1 }
  | .error _ => { s with occupant := some (.task task) }

/-- The world after the report of a task, if there was one. -/
def World.after (w : World E) (id : TaskId) (name : String)
    (previous : Status) :
    Except Fault Outcome → World E
  | .ok outcome => w.tell (.status id name previous outcome.status)
  | .error _ => w

/-- A task is back in its slot, after `result`: so are its children, the
receiver has heard of the result, and nothing else outside the area has
changed since `b`. -/
structure Rests (base : List (Listener × Notice)) (role : Role) (id : TaskId)
    (s : Slot (Stock E A)) (area : List TaskId) (task : Stock E A)
    (result : Except Fault Outcome) (children : List (Live E A)) (w : World E)
    (b a : Arena E (Stock E A)) : Prop where
  slot : a.slot? id = some (rested s task result)
  beneath : HoldsAll a id children
  effect : Effect base area (faultOf result) (w.after id s.name s.status result)
    (role.receive id result b) a

/-- The receiver of a report is outside the area, whose slots stay. -/
theorem receive_slot_mem {role : Role} {area : List TaskId}
    {b : Arena E (Stock E A)} (hawaits : role.Awaits b area) (id : TaskId)
    (result : Except Fault Outcome) (a : Arena E (Stock E A)) {other : TaskId}
    (hother : other ∈ area) :
    (role.receive id result a).slot? other = a.slot? other := by
  cases role with
  | root => cases result <;> rfl
  | guard => cases result <;> rfl
  | child parent =>
      cases result with
      | error fault => rfl
      | ok outcome =>
          rw [Role.receive, post, slot?_modify, if_neg]
          intro heq
          exact hawaits.1 (heq ▸ hother)

variable [Deed E A] {base : List (Listener × Notice)} {role : Role}
  {delta : Float32} {id : TaskId} {s : Slot (Stock E A)} {area : List TaskId}
  {w : World E} {a : Arena E (Stock E A)}

/-- The turn of a tree in an arena is its turn in the direct evaluation. -/
def Simulates (delta : Float32) (live : Live E A) : Prop :=
  ∀ (base : List (Listener × Notice)) (role : Role) (a : Arena E (Stock E A))
    (w : World E),
    Quiet a live.ids → role.Awaits a live.ids → Shares base a w →
      Holds a role live →
    ∃ a', Settles (fun b => drive b delta live.id role.control a) a'
      ∧ Holds a' role (turn delta live w).live
      ∧ Effect base live.ids (faultOf (turn delta live w).result)
        (turn delta live w).world
          (role.receive live.id (turn delta live w).result a) a'

-- ============================================================ the report

/-- A task that reports at the end of a hook goes back to its slot. -/
theorem report_rests (delta : Float32) {children : List (Live E A)}
    (hquiet : Quiet a area) (hid : id ∈ area) (hawaits : role.Awaits a area)
    (hshares : Shares base a w) (hbusy : Busy a role id s children)
    {beneath : List (Live E A)} (hbeneath : HoldsAll a id beneath)
    (hapart : ∀ x ∈ allIds beneath, x ∈ area ∧ x ≠ id) (task : Stock E A)
    (outcome : Outcome) :
    ∃ a',
      Settles (fun b =>
        carryOut b delta id (.report outcome (.done (.task task))) a) a'
      ∧ Rests base role id s area task (.ok outcome) beneath w a a' := by
  have hself : ∀ x ∈ [id], x ∈ area := fun x hx => List.mem_singleton.1 hx ▸ hid
  obtain ⟨a₁, hsettles, hslot, heffect⟩ :=
    transition_settles delta hquiet.fault hbusy.slot
      hbusy.reports hbusy.control hquiet.idle
      (fun heq => hquiet.hidden (heq ▸ hid))
      (hawaits.frame hself fun _ _ => rfl) hshares outcome
  -- The report is made within the hook, and then the task is put back; its
  -- inbox was empty.
  have hdone := carryOut_done_empty delta (.task task) heffect.fault hslot
    hbusy.inbox
  refine ⟨_, carryOut_report hsettles hdone, ?_, ?_, ?_⟩
  · simp only [refill, slot?_modify, slot?_log, hslot, if_true, Option.map_some,
      rested, hbusy.inbox, List.tail_nil]
  · refine hbeneath.frame fun x hx => ?_
    obtain ⟨hmem, hne⟩ := hapart x hx
    simp only [refill, slot?_modify, slot?_log, if_neg hne]
    rw [heffect.slots x (fun h => hne (List.mem_singleton.1 h)),
      receive_slot_mem hawaits _ _ _ hmem]
  · have hlarger := (heffect.mono hself).log (.returned id) rfl
    exact (hlarger.modify hid _).modify hid _

-- ========================================================== one child

/-- The position of a child among the handles of its siblings. -/
private theorem findIdx?_append_cons {front back : List TaskId} {x : TaskId}
    (h : (front ++ x :: back).Nodup) :
    (front ++ x :: back).findIdx? (· = x) = some front.length := by
  have hfront : x ∉ front := by
    intro hmem
    have := (List.nodup_append.1 h).2.2
    exact this x hmem x List.mem_cons_self rfl
  rw [List.findIdx?_append, List.findIdx?_eq_none_iff.2]
  · simp [List.findIdx?_cons]
  · intro y hy
    simp only [decide_eq_false_iff_not]
    exact fun heq => hfront (heq ▸ hy)

/-- A parent that runs a child is back in its slot if the child was at
fault. Otherwise it goes on with its answer to the child's outcome, and
its slot is as it was before. -/
theorem runChild_settles (front : List (Live E A)) {rest : List (Live E A)}
    {c : Live E A} (hsim : Simulates delta c) (hquiet : Quiet a (id :: c.ids))
    (hshares : Shares base a w) (hbusy : Busy a role id s (front ++ c :: rest))
    (hchild : Holds a (.child id) c) (task : Stock E A) :
    ∃ a₁, Holds a₁ (.child id) (turn delta c w).live
      ∧ Effect base (id :: c.ids) (faultOf (turn delta c w).result)
        (turn delta c w).world a a₁
      ∧ match (turn delta c w).result with
        | .error fault =>
          a₁.slot? id = some (rested s task (.error fault))
            ∧ Settles (fun b => carryOut b delta id
                (.runChild front.length (.done (.task task))) a) a₁
        | .ok outcome =>
          a₁.slot? id = some s
            ∧ ∀ a', Settles (fun b => carryOut b delta id
                  ((Stock.respond outcome task).map .task) a₁) a'
              → Settles (fun b => carryOut b delta id
                  (.runChild front.length (.done (.task task))) a) a' := by
  obtain ⟨hout, hnodup⟩ := List.nodup_cons.1 hquiet.nodup
  have hne : id ≠ .evaluator :=
    fun heq => hquiet.hidden (heq ▸ List.mem_cons_self)
  -- The child is apart from its parent, so it may have its turn while the
  -- parent's hook is open.
  have hpart : Quiet a c.ids := hquiet.part (List.sublist_cons_self _ _)
  have hawaits : (Role.child id).Awaits a c.ids :=
    ⟨hout, hne, s, hbusy.slot, hbusy.away⟩
  obtain ⟨a₁, hdrive, hholds, heffect⟩ :=
    hsim base (.child id) a w hpart hawaits hshares hchild
  -- The handles of children are distinct: the index at which a child is found
  -- is the one by which it was run.
  have hat : (a.childrenOf id)[front.length]? = some c.id := by
    rw [hbusy.childrenOf]
    simp
  have hindex : a.childIndex id c.id = front.length := by
    have hdistinct := hbusy.distinct
    unfold childIndex
    rw [hbusy.childrenOf]
    simp only [List.map_append, List.map_cons] at hdistinct ⊢
    rw [findIdx?_append_cons hdistinct, List.length_map]
    rfl
  -- the child is at rest again, whatever happens to the parent's slot
  have hstill : ∀ a₂ : Arena E (Stock E A),
      (∀ x, x ≠ id → a₂.slot? x = a₁.slot? x)
      → Holds a₂ (.child id) (turn delta c w).live := fun a₂ hagree =>
    hholds.frame fun x hx => by
      rw [turn_ids] at hx
      exact hagree x fun heq => hout (heq ▸ hx)
  have hself : id ∈ id :: c.ids := List.mem_cons_self
  have hlarger := heffect.mono (List.subset_cons_self id c.ids)
  -- A fault ends the hook of the parent; an outcome is posted to the parent,
  -- which answers it.
  cases hresult : (turn delta c w).result with
  | error fault =>
      rw [hresult] at heffect hlarger
      have hslot : a₁.slot? id = some s :=
        (heffect.slots id hout).trans hbusy.slot
      refine ⟨((a₁.log (.returned id)).modify id fun s =>
          { s with inbox := [] }).refill id
        (.task task), ?_, ?_, ?_, ?_⟩
      · exact hstill _ fun x hx => by
          rw [refill, slot?_modify, if_neg hx, slot?_modify, if_neg hx,
            slot?_log]
      · exact ((hlarger.log _ rfl).modify hself _).modify hself _
      · simp only [refill, slot?_modify, slot?_log, hslot, if_true,
          Option.map_some, rested, hbusy.inbox]
      · exact carryOut_runChild hat hdrive
          (carryOut_done_aborting heffect.fault)
  | ok outcome =>
      rw [hresult] at heffect hlarger
      have hslot : a₁.slot? id
          = some { s with inbox := [⟨front.length, outcome⟩] } := by
        rw [heffect.slots id hout, Role.receive, post, slot?_modify, if_pos rfl,
          hindex, hbusy.slot, Option.map_some, hbusy.inbox, List.nil_append]
      refine ⟨((a₁.log (.returned id)).modify id fun s =>
          { s with inbox := s.inbox.tail }).log
        (.called id (.respond outcome front.length)),
        hstill _ fun x hx => by
        rw [slot?_log, slot?_modify, if_neg hx, slot?_log], ?_, ?_, ?_⟩
      · have hback := ((hlarger.log (.returned id) rfl).modify hself fun s =>
          { s with inbox := s.inbox.tail }).log
          (.called id (.respond outcome front.length)) rfl
        refine { hback with
          slots := fun other hother => ?_
          size := hback.size.trans (Role.receive_size ..) }
        rw [hback.slots other hother, Role.receive, post, slot?_modify,
          if_neg (fun heq : other = id => hother (heq ▸ hself))]
      · rw [slot?_log, slot?_modify, if_pos rfl, slot?_log, hslot,
          Option.map_some, List.tail_cons, ← hbusy.inbox]
      · intro a' h
        exact carryOut_runChild hat hdrive
          (carryOut_done_answer delta _ heffect.fault hslot rfl h)

/-- A parent that runs a child although it has none is back in its slot, with a
fault. The fault does not keep the task from being put back. -/
theorem missing_rests (hfault : a.fault = none) (hshares : Shares base a w)
    (hbusy : Busy a role id s []) (task : Stock E A) :
    ∃ a',
      Settles (fun b =>
        carryOut b delta id (.runChild 0 (.done (.task task))) a) a'
      ∧ Rests base role id s [id] task (.error (.missingChild id s.name 0))
        [] w a a' := by
  have hself := List.mem_singleton_self id
  have hnone : (a.childrenOf id)[0]? = none := by
    rw [hbusy.childrenOf]
    rfl
  have hname : a.nameOf id = s.name := by
    unfold nameOf
    rw [hbusy.slot]
    rfl
  have hraised : Effect base [id] (some (.missingChild id s.name 0)) w a
      (a.raise (.missingChild id (a.nameOf id) 0)) := by
    have hrefl : Effect base [id] a.fault w a a := Effect.refl hshares
    rw [hfault] at hrefl
    rw [hname]
    exact hrefl.raise _
  refine ⟨_,
    carryOut_runChild_none hnone (carryOut_done_aborting hraised.fault), ?_,
    (fun c hc => absurd hc List.not_mem_nil), ?_⟩
  · simp only [refill, slot?_modify, slot?_log, slot?_raise, hbusy.slot,
      if_true, Option.map_some, rested, hbusy.inbox]
  · have hemptied := (hraised.log (.returned id) rfl).modify hself
      fun s => { s with inbox := [] }
    have hback := hemptied.modify hself
      fun s => { s with occupant := some (.task task) }
    cases role <;> exact hback

-- ======================================================= rows of children

omit [Deed E A] in
/-- Sequence and selector go on at the child they stopped at. -/
theorem Composite.update_eq [Deed E A] {mk : Nat → Stock E A} {goOn : Outcome}
    (h : Composite mk goOn) (k : Nat) :
    Stock.update (mk k) = Stock.runAt k goOn (mk k) := by
  cases h <;> rfl

omit [Deed E A] in
/-- A composite goes on to its next child, or reports what its child has
reported. -/
theorem Composite.respond_eq {mk : Nat → Stock E A} {goOn : Outcome}
    (h : Composite mk goOn) (outcome : Outcome) (k : Nat) :
    Stock.respond outcome (mk k)
      = if outcome = goOn then Stock.runAt (k + 1) goOn (mk (k + 1))
        else .report outcome (.done (mk k)) := by
  cases h <;> cases outcome <;> rfl

/-- A composite at a place runs the child there, or reports that it is
through. -/
theorem carryOut_runAt {children : List (Live E A)}
    (hbusy : Busy a role id s children) (b k : Nat) (atEnd : Outcome)
    (task : Stock E A) :
    carryOut b delta id ((Stock.runAt k atEnd task).map .task) a
      = carryOut b delta id
          (if k < children.length then .runChild k (.done (.task task))
            else .report atEnd (.done (.task task))) a := by
  have hlength : (a.view id delta).children.length = children.length := by
    rw [view, List.length_map, hbusy.childrenOf, List.length_map]
  have hlook : carryOut b delta id ((Stock.runAt k atEnd task).map .task) a
      = carryOut b delta id
          ((if k < (a.view id delta).children.length then
            .runChild k (.done task)
            else .report atEnd (.done task) : Hook E (Stock E A)).map .task)
              a := rfl
  rw [hlook, hlength]
  split <;> rfl

/-- The siblings of a child stay as they are while it has its turn. -/
theorem HoldsAll.turned {c : Live E A} {rest : List (Live E A)}
    {broken : Option Fault} {w' : World E} {a₁ : Arena E (Stock E A)}
    (h : HoldsAll a id (c :: rest)) (hnodup : (id :: allIds (c :: rest)).Nodup)
    (hchild : Holds a₁ (.child id) (turn delta c w).live)
    (heffect : Effect base (id :: c.ids) broken w' a a₁) :
    HoldsAll a₁ id ((turn delta c w).live :: rest) := by
  obtain ⟨hout, hnodup⟩ := List.nodup_cons.1 hnodup
  rw [allIds] at hout hnodup
  have hrest : HoldsAll a₁ id rest :=
    HoldsAll.frame (fun d hd => h d (List.mem_cons_of_mem _ hd)) fun x hx =>
      heffect.slots x fun hmem => by
        rcases List.mem_cons.1 hmem with rfl | hmem
        · exact hout (List.mem_append_right _ hx)
        · exact (List.nodup_append.1 hnodup).2.2 x hmem x hx rfl
  intro d hd
  rcases List.mem_cons.1 hd with rfl | hd
  · exact hchild
  · exact hrest d hd

/-- The siblings of a child that had its turn are apart from their parent. -/
theorem turned_apart {c : Live E A} {rest : List (Live E A)}
    (hnodup : (id :: allIds (c :: rest)).Nodup) :
    ∀ x ∈ allIds ((turn delta c w).live :: rest),
      x ∈ id :: allIds (c :: rest) ∧ x ≠ id := by
  intro x hx
  rw [allIds, turn_ids, ← allIds] at hx
  exact ⟨List.mem_cons_of_mem _ hx,
    fun heq => (List.nodup_cons.1 hnodup).1 (heq ▸ hx)⟩

/-- A row of children, from some place on, run by a composite. The children in
`front` have had their turns. Each step of the induction moves the next one
there, and what it did is kept by the turns after it. -/
theorem row_settles {mk : Nat → Stock E A} {goOn : Outcome}
    (hmk : Composite mk goOn) {rest : List (Live E A)}
    (hsim : ∀ c ∈ rest, Simulates delta c) (front : List (Live E A))
    (hquiet : Quiet a (id :: allIds rest))
    (hawaits : role.Awaits a (id :: allIds rest)) (hshares : Shares base a w)
    (hbusy : Busy a role id s (front ++ rest)) (hrest : HoldsAll a id rest) :
    ∃ a', Settles (fun b => carryOut b delta id
        ((Stock.runAt front.length goOn (mk front.length)).map .task) a) a'
      ∧ Rests base role id s (id :: allIds rest)
          (mk (front.length + (row delta goOn rest w).live.1))
          (row delta goOn rest w).result (row delta goOn rest w).live.2
          (row delta goOn rest w).world a a' := by
  have hid : id ∈ id :: allIds rest := List.mem_cons_self
  induction rest generalizing front a w with
  | nil =>
      simp only [carryOut_runAt hbusy, List.append_nil, Nat.lt_irrefl, if_false,
        row]
      exact report_rests delta hquiet hid hawaits hshares hbusy hrest
        (fun x hx => absurd hx List.not_mem_nil) _ goOn
  | cons c rest ih =>
      obtain ⟨hout, hnodup⟩ := List.nodup_cons.1 hquiet.nodup
      rw [allIds] at hout hnodup
      have hapart : ∀ x ∈ c.ids, x ∉ allIds rest := fun x hx hx' =>
        (List.nodup_append.1 hnodup).2.2 x hx x hx' rfl
      have hlt : front.length < (front ++ c :: rest).length := by simp
      have hsubset : id :: c.ids ⊆ id :: allIds (c :: rest) := by
        rw [allIds]
        exact List.cons_subset_cons _ (List.subset_append_left _ _)
      have hsubset' : id :: allIds rest ⊆ id :: allIds (c :: rest) := by
        rw [allIds]
        exact List.cons_subset_cons _ (List.subset_append_right _ _)
      have hquietc : Quiet a (id :: c.ids) := hquiet.part (by
        rw [allIds]
        exact (List.sublist_append_left _ _).cons_cons id)
      obtain ⟨a₁, hchild, heffect, hgoes⟩ :=
        runChild_settles front (hsim c List.mem_cons_self) hquietc
          hshares hbusy (hrest c List.mem_cons_self) (mk front.length)
      have hlarger := heffect.mono hsubset
      have hall : HoldsAll a₁ id ((turn delta c w).live :: rest) :=
        hrest.turned hquiet.nodup hchild heffect
      have hawaits₁ : role.Awaits a₁ (id :: allIds (c :: rest)) :=
        hawaits.frame (fun _ h => h) hlarger.slots
      simp only [carryOut_runAt hbusy, hlt, if_true]
      rw [row]
      dsimp only
      -- By what comes of it: a fault, an outcome to go on with, or one that
      -- ends the row.
      cases hresult : (turn delta c w).result with
      | error fault =>
          rw [hresult] at hgoes hlarger
          exact ⟨a₁, hgoes.2, hgoes.1, hall, by
            cases role <;> exact hlarger⟩
      | ok outcome =>
          rw [hresult] at hgoes hlarger
          have hquiet₁ : Quiet a₁ (id :: allIds (c :: rest)) :=
            hquiet.after (fun _ h => h) hlarger
          by_cases hgo : outcome = goOn
          · have hbusy₁ : Busy a₁ role id s ((front ++ [c]) ++ rest) := by
              rw [List.append_assoc]
              exact { hbusy with slot := hgoes.1 }
            -- The child moves to the front, and the others have their turns.
            obtain ⟨a', hsettles, hrests⟩ :=
              ih (fun d hd => hsim d (List.mem_cons_of_mem _ hd))
                (front ++ [c]) (hquiet₁.part (by
                  rw [allIds]
                  exact (List.sublist_append_right _ _).cons_cons id))
                (hawaits₁.frame hsubset' fun _ _ => rfl) heffect.shares hbusy₁
                (fun d hd => hall d (List.mem_cons_of_mem _ hd))
                List.mem_cons_self
            have hlength : (front ++ [c]).length = front.length + 1 := by simp
            rw [hlength] at hsettles hrests
            refine ⟨a', hgoes.2 a' ?_, ?_, ?_, ?_⟩
            · rw [hmk.respond_eq, if_pos hgo]
              exact hsettles
            · simp only [if_pos hgo]
              rw [hrests.slot, Nat.add_assoc, Nat.add_comm 1]
            · simp only [if_pos hgo]
              intro d hd
              rcases List.mem_cons.1 hd with rfl | hd
              · refine hchild.frame fun x hx => ?_
                rw [turn_ids] at hx
                have hmem : x ∈ id :: allIds (c :: rest) :=
                  hsubset (List.mem_cons_of_mem _ hx)
                rw [hrests.effect.slots x, receive_slot_mem hawaits _ _ _ hmem]
                intro hmem'
                rcases List.mem_cons.1 hmem' with rfl | hmem'
                · exact hout (List.mem_append_left _ hx)
                · exact hapart x hx hmem'
              · exact hrests.beneath d hd
            · simp only [if_pos hgo]
              exact hlarger.trans_receive hawaits (hrests.effect.mono hsubset')
          · obtain ⟨a', hsettles, hrests⟩ :=
              report_rests delta hquiet₁ hid hawaits₁ heffect.shares
                { hbusy with slot := hgoes.1 } hall (turned_apart hquiet.nodup)
                (mk front.length) outcome
            refine ⟨a', hgoes.2 a' ?_, ?_⟩
            · rw [hmk.respond_eq, if_neg hgo]
              exact hsettles
            · simp only [if_neg hgo]
              exact ⟨hrests.slot, hrests.beneath,
                hlarger.trans_receive hawaits hrests.effect⟩

end TaskTree.Direct
