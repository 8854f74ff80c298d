/-
A reference to a subtree means the text of the subtree.

A reference places a copy of a tree that was read before. If that tree came
from a text, the same is placed by the lines of the text themselves, indented
as far as the reference is: they make up a document of their own inside the
other one, and such a document is as good as the tree that it gives
(`parse_inlined`). The tree is unused, so the copy that the reference places is
the tree itself.
-/
import TaskTree.Proofs.Direct.Leftovers
import TaskTree.Proofs.Outline.Passages
import TaskTree.Proofs.Outline.Restoring
import TaskTree.Proofs.Outline.Unused

namespace TaskTree.Outline

open Grammar (Space Row)

-- ======================================================== a line in place

section Placing

variable {E T : Type} [Behavior E T] {dialect dialect' : Dialect T}

namespace Scaffold

/-- Lines whose statements build the same in two dialects are taken in the same
way. -/
theorem takeLines_congr {lines : List Line}
    (hbuild : ∀ line ∈ lines, ∀ statement ∈ line.statements,
      dialect.build statement = dialect'.build statement) (s : Scaffold T) :
    s.takeLines dialect lines = s.takeLines dialect' lines := by
  refine foldlM_congr (fun line hline s => ?_) s
  refine foldlM_congr (fun statement hstatement s => ?_) _
  unfold take
  rw [hbuild line hline statement hstatement]

/-- No guard waits after lines of which the last statement is none. By induction
on the lines, and within the last line on its statements: only the very last
statement counts, and it is a task. -/
theorem takeLines_guard {lines : List Line} {s s' : Scaffold T}
    (hnone : s.guard = none)
    (hlast : ∀ x, (lines.flatMap (·.statements)).getLast? = some x →
      x.isGuard = false) (h : s.takeLines dialect lines = .ok s') :
    s'.guard = none := by
  induction lines using List.reverseRecOn generalizing s' with
  | nil =>
      cases h
      exact hnone
  | append_singleton lines line ih =>
      rw [takeLines_append_singleton] at h
      obtain ⟨s₁, hs₁, h⟩ := bind_eq_ok h
      rw [List.flatMap_append, List.flatMap_singleton] at hlast
      obtain ⟨indent, statements⟩ := line
      cases statements using List.reverseRecOn with
      | nil =>
          cases h
          rw [List.append_nil] at hlast
          show s₁.guard = none
          exact ih hlast hs₁
      | append_singleton statements statement =>
          -- The last statement of the line is the last of all.
          have htask : statement.isGuard = false := by
            refine hlast statement ?_
            rw [← List.append_assoc, List.getLast?_concat]
          have hsplit : s₁.takeLine dialect
              { indent, statements := statements ++ [statement] }
              = s₁.takeLine dialect { indent, statements }
                >>= fun s => s.take dialect statement :=
            takeLine_append { indent, statements } statement s₁
          rw [hsplit] at h
          obtain ⟨s₂, -, htake⟩ := bind_eq_ok h
          -- Where a task has been placed no guard waits.
          obtain ⟨b, -, -, hplace⟩ := (take_task_eq_ok_iff htask).1 htake
          exact place_guard hplace

/-- A task alone on its line is as good as the lines of a document that gives
the same tree. -/
theorem takeLines_inlined {before inner after : List Line} {depth : Nat}
    {statement : Statement} {tree root : Blueprint T}
    (htask : statement.isGuard = false)
    (hbuild : dialect.build statement = .ok tree)
    (hinner : (empty : Scaffold T).takeLines dialect inner >>= finish
      = .ok tree)
    (hflat : ∀ x, firstTask (spread 0 inner) = some x → x.indent = 0)
    (hunguarded : ∀ x, (before.flatMap (·.statements)).getLast? = some x →
      x.isGuard = false)
    (hshallow : ∀ x, firstTask (spread 0 after) = some x → x.indent ≤ depth) :
    (empty : Scaffold T).takeLines dialect
          (before ++ ({ indent := depth, statements := [statement] } :: after))
            >>= finish = .ok root ↔
      (empty : Scaffold T).takeLines dialect
          (before ++ (inner.map (Line.deeper depth) ++ after)) >>= finish
            = .ok root := by
  rw [takeLines_append, takeLines_append, bind_assoc, bind_assoc]
  cases hbefore : (empty : Scaffold T).takeLines dialect before with
  | error fault => exact Iff.rfl
  | ok s =>
      have hnone : s.guard = none := takeLines_guard rfl hunguarded hbefore
      show s.takeLines dialect (_ :: after) >>= finish = .ok root ↔
        s.takeLines dialect (_ ++ after) >>= finish = .ok root
      rw [takeLines_splice hinner hflat hshallow hnone, takeLines_cons,
        takeLine_task htask hnone hbuild]

end Scaffold

end Placing

-- ========================================================= the reference

/-- A line that consists of a reference, and maybe a comment. -/
inductive Refers (name : String) (indent : Nat) : List Char → Prop where
  | mk {margin space comment : List Char} {es : List Event} :
      Grammar.Margin margin indent → Grammar.Name name.toList → Space space →
      Grammar.Comment comment es →
      Refers name indent
        (margin ++ (['-', '>'] ++ name.toList ++ (space ++ comment)))

/-- A reference is read as one statement, whatever the line looks like
otherwise. -/
theorem Refers.reads {name : String} {indent : Nat} {line : List Char}
    (h : Refers name indent line) :
    Reads [line] [{ indent, statements := [.bare name true false] }] := by
  cases h with
  | @mk margin space comment es hmargin hname hspace hcomment =>
      have hstatement : Grammar.Statement (['-', '>'] ++ name.toList)
          [.statement name true false, .endStatement] :=
        statement_bare .absent .present hname
      have hline := Grammar.Line.full hmargin (.one hstatement) hspace hcomment
      cases hcomment with
      | absent => exact reads_of_line hline rfl
      | present => exact reads_of_line hline rfl

-- ============================================================ the texts

/-- The lines of a text. An empty one at its end may be left out. -/
def LinesOf (text : String) (lines : List (List Char)) : Prop :=
  splitLines text.toList = lines ∨ splitLines text.toList = lines ++ [[]]

/-- The lines of a text are read alike with a line feed at the end and
without. -/
theorem LinesOf.reads {text : String} {lines : List (List Char)}
    (h : LinesOf text lines) {rows : List Line}
    (hrows : Reads (splitLines text.toList) rows) : Reads lines rows := by
  rcases h with hlines | hlines
  · exact hlines ▸ hrows
  · rw [hlines] at hrows
    obtain ⟨rows₁, rows₂, hrows₁, hrows₂, rfl⟩ := reads_append.1 hrows
    rw [hrows₂.unique reads_blank, List.append_nil]
    exact hrows₁

/-- Lines that can stand for references to the subtree of a name: their root is
not indented, and there is no such reference among them. -/
structure Inlinable (name : String) (lines : List (List Char)) : Prop where
  flat : ∀ rows, Reads lines rows →
    ∀ x, firstTask (spread 0 rows) = some x → x.indent = 0
  foreign : ∀ rows, Reads lines rows →
    ∀ line ∈ rows, ∀ statement ∈ line.statements,
    statement.isReference = true → statement.name ≠ name

/-- The surroundings of a line that is indented `indent` deep: no guard waits
for it, and the next task of another line is indented no deeper. -/
structure Spot (indent : Nat) (before after : List (List Char)) : Prop where
  unguarded : ∀ rows, Reads before rows →
    ∀ x, (rows.flatMap (·.statements)).getLast? = some x → x.isGuard = false
  shallow : ∀ rows, Reads after rows →
    ∀ x, firstTask (spread 0 rows) = some x → x.indent ≤ indent

section Documents

variable {E A T : Type} [Behavior E T] {embed : Stock E A → T}
  {dialect : Dialect T}

/-- The dialect once a subtree has come onto its shelf. -/
def Dialect.storing (dialect : Dialect T) (name : String)
    (subtree : Blueprint T) : Dialect T :=
  { dialect with shelf := dialect.shelf.put name subtree }

/-- A subtree on the shelf changes nothing for the statements that do not refer
to it. -/
theorem build_storing {name : String} (subtree : Blueprint T)
    {statement : Statement}
    (h : statement.isReference = true → statement.name ≠ name) :
    dialect.build statement
      = (dialect.storing name subtree).build statement := by
  unfold Dialect.build
  cases hreference : statement.isReference with
  | false => rfl
  | true =>
      unfold Shelf.copy Dialect.storing
      dsimp only
      rw [Roster.get?_put_of_ne _ _ (h hreference)]

/-- A reference to an unused subtree places the subtree itself. -/
theorem build_reference {name : String} {subtree : Blueprint T}
    (h : subtree.Unused) :
    (dialect.storing name subtree).build (.bare name true false)
      = .ok subtree := by
  unfold Dialect.build
  rw [if_pos (by rfl), if_pos (by rfl)]
  unfold Shelf.copy Dialect.storing Statement.bare
  dsimp only
  rw [Roster.get?_put_self]
  exact congrArg Except.ok h

/-- A reference to a subtree that was read from a text means that text: a
document with the reference gives the same trees as the document in which the
lines of the text, indented as far as the reference, stand in its place. And
nothing of a run is in these trees.

That rewinding a task twice is rewinding it once is asked for the sake of the
subtrees that came onto the shelf in another way. -/
theorem parse_inlined
    (hembed : ∀ task, Behavior.rewind (embed task) = embed task.rewind)
    (hrewind : ∀ task : T,
      Behavior.rewind (Behavior.rewind task) = Behavior.rewind task)
    (hwords : dialect.vocabulary = .standard embed) {name text : String}
    {tree : Blueprint T} (hparse : (dialect.parse text).2 = .ok tree)
    {lines : List (List Char)} (hlines : LinesOf text lines)
    (hinlinable : Inlinable name lines) {indent : Nat} {line : List Char}
    (hline : Refers name indent line) {before after : List (List Char)}
    (hspot : Spot indent before after) {d d' : String}
    (hd : splitLines d.toList = before ++ line :: after)
    (hd' : splitLines d'.toList
      = before ++ lines.map
        (fun line => List.replicate indent ' ' ++ line) ++ after)
    (root : Blueprint T) :
    (((dialect.storing name tree).parse d).2 = .ok root ↔
        ((dialect.storing name tree).parse d').2 = .ok root)
      ∧ (((dialect.storing name tree).parse d).2 = .ok root →
        root.renewed = root) := by
  have hwords' : (dialect.storing name tree).vocabulary = .standard embed :=
    hwords
  refine ⟨?_, parse_unused hembed hrewind hwords'⟩
  have hunused : tree.Unused := parse_unused hembed hrewind hwords hparse
  -- Both texts are split into the lines before the spot, those at it, and those
  -- after it.
  obtain ⟨inner, hread, hinner⟩ := parse_eq_ok_iff_reads.1 hparse
  have hreads : Reads lines inner := hlines.reads hread
  -- the text still gives the same tree when the subtree is on the shelf
  have hsame : (Scaffold.empty : Scaffold T).takeLines dialect inner
      = Scaffold.empty.takeLines (dialect.storing name tree) inner :=
    Scaffold.takeLines_congr (fun line hline statement hstatement =>
      build_storing tree
        (hinlinable.foreign inner hreads line hline statement hstatement)) _
  rw [hsame] at hinner
  -- What is read before and after is the same for both, so it is the statements
  -- at the spot that count.
  rw [parse_eq_ok_iff_around hd hline.reads,
    parse_eq_ok_iff_around (hd'.trans (List.append_assoc ..))
      (hreads.deeper indent)]
  refine exists_congr fun rows₁ => exists_congr fun rows₂ =>
    and_congr_right fun hbefore => and_congr_right fun hafter => ?_
  exact Scaffold.takeLines_inlined rfl (build_reference hunused) hinner
    (hinlinable.flat inner hreads) (hspot.unguarded rows₁ hbefore)
    (hspot.shallow rows₂ hafter)

/-- A subtree with two tasks below its root. -/
def eitherSubtree : Blueprint (Stock Unit Empty) :=
  .node (.selector 0) none [.single .failure, .single .success]

/-- A tree with a copy of it. -/
def eitherTree : Blueprint (Stock Unit Empty) :=
  .node (.sequence 0) none [eitherSubtree, .single .success]

/-- A reference between two tasks, with a comment after it. -/
theorem parse_inlined_either :
    (((Dialect.standard id .standard).storing "either" eitherSubtree).parse
        "sequence\n ->either # of two\n success").2 = .ok eitherTree
      ∧ (((Dialect.standard id .standard).storing "either" eitherSubtree).parse
        "sequence\n selector\n  failure\n  success\n success").2
      = .ok eitherTree
      ∧ eitherTree.renewed = eitherTree := by
  -- The texts are run through the reader. The rest says that they are of the
  -- kind the theorem speaks of.
  have hparse : ((Dialect.standard (id : Stock Unit Empty → _) .standard).parse
      "selector\n failure\n success\n").2 = .ok eitherSubtree := by
    cbv
  have hwhole :
      (((Dialect.standard id .standard).storing "either" eitherSubtree).parse
      "sequence\n ->either # of two\n success").2 = .ok eitherTree := by
    cbv
  have hlines : LinesOf "selector\n failure\n success\n"
      ["selector".toList, " failure".toList, " success".toList] :=
    .inr (by decide)
  have hreads : Reads ["selector".toList, " failure".toList, " success".toList]
      [⟨0, [.bare "selector" false false]⟩, ⟨1, [.bare "failure" false false]⟩,
        ⟨1, [.bare "success" false false]⟩] := ⟨_, by cbv, rfl⟩
  have hbefore : Reads ["sequence".toList]
      [⟨0, [.bare "sequence" false false]⟩] :=
    ⟨_, by cbv, rfl⟩
  have hafter : Reads [" success".toList]
      [⟨1, [.bare "success" false false]⟩] :=
    ⟨_, by cbv, rfl⟩
  have hinlinable : Inlinable "either"
      ["selector".toList, " failure".toList, " success".toList] := by
    -- Nothing in the subtree refers to it, and no guard stands at its end.
    refine ⟨fun rows hrows x hx => ?_, fun rows hrows => ?_⟩
    · rw [hrows.unique hreads] at hx
      cases hx
      rfl
    · rw [hrows.unique hreads]
      decide
  -- Before the spot no guard waits; what comes after is no deeper.
  have hspot : Spot 1 ["sequence".toList] [" success".toList] := by
    refine ⟨fun rows hrows x hx => ?_, fun rows hrows x hx => ?_⟩
    · rw [hrows.unique hbefore] at hx
      cases hx
      rfl
    · rw [hrows.unique hafter] at hx
      cases hx
      exact Nat.le_refl 1
  have hrefers : Refers "either" 1 " ->either # of two".toList := by
    have hmargin : Grammar.Margin [' '] 1 :=
      .mk (List.forall_mem_singleton.2 (.inl rfl)) space_nil fun c hc => by
        cases hc
    have hname : Grammar.Name "either".toList := .of_check (by decide)
    have hcomment : Grammar.Comment ('#' :: (" of two".toList ++ []))
        [.comment (String.ofList " of two".toList)] :=
      .present (by decide) (List.forall_mem_nil _)
    exact .mk hmargin hname space_blank hcomment
  have hembed : ∀ task : Stock Unit Empty,
      Behavior.rewind (id task) = id task.rewind :=
    fun _ => rfl
  have hwords :
      (Dialect.standard (id : Stock Unit Empty → _) .standard).vocabulary
      = .standard id := rfl
  have hd : splitLines "sequence\n ->either # of two\n success".toList
      = ["sequence".toList] ++ " ->either # of two".toList
        :: [" success".toList] := by
    decide
  have hd' :
      splitLines "sequence\n selector\n  failure\n  success\n success".toList
      = ["sequence".toList]
        ++ ["selector".toList, " failure".toList, " success".toList].map
          (fun line => List.replicate 1 ' ' ++ line)
        ++ [" success".toList] := by
    decide
  obtain ⟨hsame, hunused⟩ :=
    parse_inlined hembed Direct.rewind_rewind hwords hparse hlines
      hinlinable hrefers hspot hd hd' eitherTree
  exact ⟨hwhole, hsame.1 hwhole, hunused hwhole⟩

end Documents

end TaskTree.Outline
