/-
Statements are read back from their text.

A statement that was collected has names as the grammar has them, so its text
is derived as a line if its values are faithful, and the events of that line
put the statement together again, attribute after attribute. If a value is
not faithful, the attributes before the first such value are read, and then
the reader stops. So a text that was written is read as what was written, or
not at all (`Statement.read_text_of_collected`).

Both halves are inductions on the attributes, one with all of them faithful
and one up to the first that is not; in the latter the events before it are
told already when the reader stops.
-/
import TaskTree.Outline.Lines
import TaskTree.Proofs.Outline.Derivation
import TaskTree.Proofs.Outline.Writing

namespace TaskTree.Outline

open Grammar (Space Row)

-- ================================================================= names

/-- An event whose names are those of the grammar. -/
def Event.Named : Event → Prop
  | .statement name _ _ => Grammar.Name name.toList
  | .attr name _ => Grammar.Name name.toList
  | _ => True

/-- A name is still one after it has been put into a string. -/
theorem Grammar.Name.ofList {name : List Char} (h : Grammar.Name name) :
    Grammar.Name (String.ofList name).toList := by
  rw [String.toList_ofList]
  exact h

/-- A name begins as the grammar says. -/
theorem Grammar.Name.start {name : List Char} (h : Grammar.Name name) :
    ∃ c more, name = c :: more ∧ Grammar.NameStart c := by
  cases h with
  | mk hstart => exact ⟨_, _, rfl, hstart⟩

/-- Whether a row of characters is a name can be checked. -/
theorem Grammar.Name.of_check {name : List Char}
    (h : (name.head?.any startsName && name.tail.all isNameChar) = true) :
    Grammar.Name name := by
  obtain ⟨hstart, hmore⟩ := Bool.and_eq_true_iff.1 h
  cases name with
  | nil => cases hstart
  | cons c more =>
      exact .mk (startsName_iff.1 hstart)
        fun d hd => isNameChar_iff.1 (List.all_eq_true.1 hmore d hd)

/-- The names in a row are those of its items. -/
theorem Grammar.Row.named {Item : List Char → List Event → Prop}
    {cs : List Char} {es : List Event} (h : Row Item cs es)
    (hitem : ∀ word fs, Item word fs → ∀ e ∈ fs, e.Named) :
    ∀ e ∈ es, e.Named := by
  induction h with
  | one hfirst => exact hitem _ _ hfirst
  | more hfirst _ _ _ ih =>
      exact List.forall_mem_append.2 ⟨hitem _ _ hfirst, ih⟩

/-- The name of an attribute is one of the grammar. -/
theorem Grammar.Attribute.named {cs : List Char} {es : List Event}
    (h : Grammar.Attribute cs es) :
    ∀ e ∈ es, e.Named := by
  cases h with
  | mk hname => exact List.forall_mem_singleton.2 hname.ofList

/-- So are the names in a statement. -/
theorem Grammar.Statement.named {cs : List Char} {es : List Event}
    (h : Grammar.Statement cs es) :
    ∀ e ∈ es, e.Named := by
  cases h with
  | bare _ _ hname =>
      exact List.forall_mem_cons.2
        ⟨hname.ofList, List.forall_mem_singleton.2 trivial⟩
  | listed _ _ hname hattributes =>
      rw [List.forall_mem_cons, List.forall_mem_append]
      refine ⟨hname.ofList, ?_, List.forall_mem_singleton.2 trivial⟩
      cases hattributes with
      | empty => exact fun e he => absurd he List.not_mem_nil
      | row _ hrow => exact hrow.named fun _ _ hword => hword.named

/-- A comment has no names. -/
theorem Grammar.Comment.named {cs : List Char} {es : List Event}
    (h : Grammar.Comment cs es) :
    ∀ e ∈ es, e.Named := by
  cases h with
  | absent => exact fun e he => absurd he List.not_mem_nil
  | present => exact List.forall_mem_singleton.2 trivial

/-- So all names of a line are of the grammar. -/
theorem Grammar.Line.named {cs : List Char} {es : List Event}
    (h : Grammar.Line cs es) :
    ∀ e ∈ es, e.Named := by
  cases h with
  | blank _ hcomment => exact hcomment.named
  | full _ hrow _ hcomment =>
      rw [List.forall_mem_cons, List.forall_mem_append, List.forall_mem_append]
      exact ⟨trivial, hrow.named fun _ _ hword => hword.named, hcomment.named,
        List.forall_mem_singleton.2 trivial⟩

/-- The names in a text that can be read are those of the grammar. -/
theorem named_of_legible {text : String} (h : Legible text) (comments : Bool) :
    ∀ e ∈ events comments text, e.Named := by
  intro e he
  obtain ⟨line, hline, he⟩ := List.mem_flatMap.1 he
  rw [lineEvents_eq_filter] at he
  obtain ⟨rest, hstop⟩ := h line hline
  exact (readLine_sound hstop).named e (List.mem_filter.1 he).1

/-- A statement whose names are those of the grammar. -/
structure Statement.Named (s : Statement) : Prop where
  name : Grammar.Name s.name.toList
  attributes : ∀ entry ∈ s.attributes.entries, Grammar.Name entry.1.toList

namespace Lines

/-- All statements met so far have names of the grammar. -/
structure Named (kept : Lines) : Prop where
  lines : ∀ line ∈ kept.lines, ∀ s ∈ line.statements, s.Named
  current : ∀ s, kept.current = some s → s.Named

/-- A statement whose names are of the grammar may be added. -/
theorem Named.addStatement {kept : Lines} (h : kept.Named) {s : Statement}
    (hs : s.Named) :
    (kept.addStatement s).Named := by
  refine ⟨fun line hline t ht => ?_, h.current⟩
  obtain ⟨i, hi, rfl⟩ := Array.mem_iff_getElem.1 hline
  unfold Lines.addStatement at hi ht
  dsimp only at hi ht
  rw [Array.size_modify] at hi
  have hkept := h.lines kept.lines[i] (Array.getElem_mem hi)
  rw [Array.getElem_modify] at ht
  split at ht
  · rcases List.mem_append.1 ht with ht | ht
    · exact hkept t ht
    · obtain rfl := List.mem_singleton.1 ht
      exact hs
  · exact hkept t ht

/-- An attribute whose name is of the grammar may be added to a statement. -/
theorem addAttribute_named {s s' : Statement} (hs : s.Named) {name : String}
    {value : Literal} (hname : Grammar.Name name.toList)
    (h : s.addAttribute name value = .ok s') : s'.Named := by
  unfold Statement.addAttribute Attributes.add? at h
  split at h
  · rename_i attributes hadd
    cases h
    split at hadd
    · cases hadd
    · cases hadd
      exact ⟨hs.name,
        List.forall_mem_append.2
          ⟨hs.attributes, List.forall_mem_singleton.2 hname⟩⟩
  · cases h

/-- Events with names of the grammar give statements with such names. Only three
events matter: one that opens a statement, one that gives it an attribute, and
one that closes it. -/
theorem Named.handler {kept : Lines} (h : kept.Named) {event : Event}
    (hevent : event.Named) :
    (Lines.handler event kept).1.Named := by
  cases event with
  | line indent =>
      refine ⟨fun line hline s hs => ?_, h.current⟩
      rcases Array.mem_push.1 hline with hline | rfl
      · exact h.lines line hline s hs
      · exact absurd hs List.not_mem_nil
  | statement name isReference isGuard =>
      refine ⟨h.lines, fun s hs => ?_⟩
      cases hs
      exact ⟨hevent, fun entry hentry => absurd hentry List.not_mem_nil⟩
  | attr name value =>
      rw [Lines.handler]
      split
      · exact h
      · rename_i s hcurrent
        split
        · rename_i s' hadd
          refine ⟨h.lines, fun t ht => ?_⟩
          cases ht
          exact addAttribute_named (h.current s hcurrent) hevent hadd
        · exact h
  | endStatement =>
      rw [Lines.handler]
      split
      · exact h
      · rename_i s hcurrent
        have hdone : ({ kept with current := none } : Lines).Named :=
          ⟨h.lines, nofun⟩
        exact hdone.addStatement (h.current s hcurrent)
  | endLine => exact h
  | comment text => exact ⟨h.lines, h.current⟩

/-- What is collected from such events has names of the grammar. -/
theorem Named.listen {kept kept' : Lines} (h : kept.Named) {es : List Event}
    (hes : ∀ e ∈ es, e.Named)
    (hlisten : listen Lines.handler es kept = (kept', none)) :
    kept'.Named := by
  induction es generalizing kept with
  | nil =>
      cases hlisten
      exact h
  | cons event es ih =>
      obtain ⟨hevent, hes⟩ := List.forall_mem_cons.1 hes
      have hnext := h.handler hevent
      rcases htaken : Lines.handler event kept with ⟨kept₁, _ | fault⟩
      · rw [htaken] at hnext
        rw [listen_cons_of_taken htaken] at hlisten
        exact ih hnext hes hlisten
      · rw [listen_cons_of_refused htaken] at hlisten
        cases hlisten

end Lines

-- ================================================================= texts

/-- An attribute as it is written. -/
def attributeText (entry : String × Literal) : List Char :=
  entry.1.toList ++ ':' :: entry.2.shown.toList

/-- Attributes as they are written, without their brackets. -/
def attributeRow (entries : List (String × Literal)) : List Char :=
  [' '].intercalate (entries.map attributeText)

/-- The event of an attribute. -/
def attributeEvent (entry : String × Literal) : Event := .attr entry.1 entry.2

/-- A mark before the name of a statement. -/
def markText (present : Bool) (word : List Char) : List Char :=
  if present then word else []

/-- A row of attributes is one of them, a space, and the others. -/
theorem attributeRow_cons_cons (entry next : String × Literal)
    (entries : List (String × Literal)) :
    attributeRow (entry :: next :: entries)
      = attributeText entry ++ ' ' :: attributeRow (next :: entries) := by
  unfold attributeRow
  rw [List.map_cons, List.map_cons, List.intercalate_cons_cons,
    List.append_assoc]
  rfl

/-- A single attribute has no space after it. -/
theorem attributeRow_singleton (entry : String × Literal) :
    attributeRow [entry] = attributeText entry := List.intercalate_singleton

/-- A mark is written as the grammar spells it. -/
theorem flag_markText (present : Bool) (word : List Char) :
    Grammar.Flag word (markText present word) present := by
  cases present with
  | false => exact .absent
  | true => exact .present

namespace Statement

/-- No attributes, no brackets. -/
theorem attributesText_of_nil {attributes : Attributes}
    (h : attributes.entries = []) :
    (attributesText attributes).toList = [] := by
  unfold attributesText
  rw [h]
  rfl

/-- Attributes are written as a row between brackets. -/
theorem attributesText_of_ne_nil {attributes : Attributes}
    (h : attributes.entries ≠ []) :
    (attributesText attributes).toList
      = '(' :: (attributeRow attributes.entries ++ [')']) := by
  have hentries : attributes.entries.isEmpty = false :=
    List.isEmpty_eq_false_iff.2 h
  -- Each attribute is its name, a colon and what is shown of its value.
  have hmap :
      (attributes.entries.map fun entry => entry.1 ++ ":" ++ entry.2.shown).map
        String.toList
      = attributes.entries.map attributeText := by
    rw [List.map_map]
    refine List.map_congr_left fun entry _ => ?_
    unfold attributeText
    rw [Function.comp_apply, String.toList_append, String.toList_append,
      List.append_assoc]
    rfl
  unfold attributesText
  rw [hentries, if_neg Bool.false_ne_true, String.toList_append,
    String.toList_append, String.toList_intercalate, hmap]
  rfl

/-- A statement is written as its marks, its name and its attributes. -/
theorem text_toList (s : Statement) :
    s.text.toList = markText s.isGuard ['?']
      ++ (markText s.isReference ['-', '>']
      ++ (s.name.toList ++ (attributesText s.attributes).toList)) := by
  unfold text
  rw [String.toList_append, String.toList_append, String.toList_append,
    List.append_assoc, List.append_assoc]
  cases s.isGuard <;> cases s.isReference <;> rfl

end Statement

-- ========================================================== derivations

/-- Nothing is no space at all. -/
theorem space_nil : Space [] := nofun

/-- A blank separates. -/
theorem space_blank : Space [' '] := List.forall_mem_singleton.2 (.inl rfl)

/-- The empty margin. -/
theorem margin_nil : Grammar.Margin [] 0 :=
  .mk (List.forall_mem_nil _) space_nil fun c hc => by cases hc

/-- A name with its marks is a statement. -/
theorem statement_bare {guard reference : List Char}
    {isGuard isReference : Bool} {name : String}
    (hguard : Grammar.Flag ['?'] guard isGuard)
    (hreference : Grammar.Flag ['-', '>'] reference isReference)
    (hname : Grammar.Name name.toList) :
    Grammar.Statement (guard ++ (reference ++ name.toList))
      [.statement name isReference isGuard, .endStatement] := by
  have hbare := Grammar.Statement.bare hguard hreference hname
  rwa [String.ofList_toList] at hbare

/-- An attribute whose value is kept by its text is one of the grammar. -/
theorem attribute_attributeText {entry : String × Literal}
    (hname : Grammar.Name entry.1.toList) (hvalue : entry.2.Faithful) :
    Grammar.Attribute (attributeText entry) [attributeEvent entry] := by
  have hderived := Grammar.Attribute.mk hname space_nil space_nil hvalue.value
  rw [String.ofList_toList] at hderived
  exact hderived

/-- A row of such attributes is one of the grammar, with a blank between any two
of them. -/
theorem row_attributeRow {entries : List (String × Literal)}
    (hne : entries ≠ [])
    (hnames : ∀ entry ∈ entries, Grammar.Name entry.1.toList)
    (hvalues : ∀ entry ∈ entries, entry.2.Faithful) :
    Row Grammar.Attribute (attributeRow entries)
      (entries.map attributeEvent) := by
  induction entries with
  | nil => exact absurd rfl hne
  | cons entry entries ih =>
      obtain ⟨hname, hnames⟩ := List.forall_mem_cons.1 hnames
      obtain ⟨hvalue, hvalues⟩ := List.forall_mem_cons.1 hvalues
      have hattribute := attribute_attributeText hname hvalue
      cases entries with
      | nil =>
          rw [attributeRow_singleton]
          exact .one hattribute
      | cons next entries =>
          have hmore := ih (List.cons_ne_nil _ _) hnames hvalues
          have hrow :=
            Row.more hattribute space_blank (List.cons_ne_nil _ _) hmore
          rw [attributeRow_cons_cons]
          exact hrow

namespace Statement

/-- A statement whose values are written as outlines write them. -/
def Faithful (s : Statement) : Prop :=
  ∀ entry ∈ s.attributes.entries, entry.2.Faithful

/-- The events of a statement in a line of its own. -/
def ownEvents (s : Statement) : List Event :=
  .line 0 :: .statement s.name s.isReference s.isGuard
    :: (s.attributes.entries.map attributeEvent ++ [.endStatement, .endLine])

/-- The text of a faithful statement is derived, with its events. -/
theorem Named.line {s : Statement} (h : s.Named) (hfaithful : s.Faithful) :
    Grammar.Line s.text.toList s.ownEvents := by
  -- The statement as it is written, with its list or without one.
  have hstatement : Grammar.Statement s.text.toList
      (.statement s.name s.isReference s.isGuard
      :: (s.attributes.entries.map attributeEvent ++ [.endStatement])) := by
    have hguard := flag_markText s.isGuard ['?']
    have hreference := flag_markText s.isReference ['-', '>']
    rw [text_toList]
    by_cases hempty : s.attributes.entries = []
    · rw [attributesText_of_nil hempty, List.append_nil, hempty]
      exact statement_bare hguard hreference h.name
    · have hrow := row_attributeRow hempty h.attributes hfaithful
      have hlisted := Grammar.Statement.listed hguard hreference h.name
        (.row space_nil hrow space_nil)
      rw [attributesText_of_ne_nil hempty]
      rw [String.ofList_toList, List.nil_append, List.append_nil] at hlisted
      exact hlisted
  have hline := Grammar.Line.full margin_nil (.one hstatement) space_nil .absent
  rw [List.append_nil, List.append_nil, List.nil_append, List.nil_append,
    List.cons_append, List.append_assoc] at hline
  exact hline

end Statement

-- ============================================================ collecting

/-- The first of some attributes have different names. -/
theorem Attributes.nodup_of_append {attributes : Attributes}
    {before after : List (String × Literal)}
    (h : attributes.entries = before ++ after) : (before.map (·.1)).Nodup := by
  have hall := attributes.nodup
  rw [h, List.map_append] at hall
  exact (List.nodup_append.1 hall).1

namespace Lines

/-- A line of its own for a statement. -/
def single (s : Statement) : Lines :=
  { lines := #[{ indent := 0, statements := [s] }], comments := #[],
    current := none }

/-- Attributes that a statement has are added to it one after another. By
induction on the attributes that are still to come; the statement has got those
before them. -/
theorem listen_attributes (s : Statement)
    {before after : List (String × Literal)}
    (hentries : s.attributes.entries = before ++ after)
    (hnodup : (before.map (·.1)).Nodup) (kept : Lines) :
    listen handler (after.map attributeEvent)
        { kept with current := some { s with attributes := ⟨before, hnodup⟩ } }
      = ({ kept with current := some s }, none) := by
  induction after generalizing before with
  | nil =>
      rw [List.append_nil] at hentries
      obtain ⟨name, isReference, isGuard, ⟨entries, _⟩⟩ := s
      cases hentries
      rfl
  | cons entry after ih =>
      have hentries' : s.attributes.entries = before ++ [entry] ++ after := by
        rw [hentries, List.append_assoc]
        rfl
      have hnodup' := Attributes.nodup_of_append hentries'
      -- No name comes twice, so the next attribute is not refused.
      have hfresh : ¬ (⟨before, hnodup⟩ : Attributes).has entry.1 = true := by
        rw [Attributes.has_eq_true_iff]
        intro hmem
        rw [List.map_append] at hnodup'
        exact (List.nodup_append.1 hnodup').2.2 _ hmem _ List.mem_cons_self rfl
      have hadd :
          ({ s with attributes := ⟨before, hnodup⟩ } : Statement).addAttribute
            entry.1 entry.2
          = .ok { s with attributes := ⟨before ++ [entry], hnodup'⟩ } := by
        unfold Statement.addAttribute Attributes.add?
        dsimp only
        rw [dif_neg hfresh]
      have htaken : handler (attributeEvent entry)
            { kept with
              current := some { s with attributes := ⟨before, hnodup⟩ } }
          = ({ kept with
               current :=
                 some { s with attributes := ⟨before ++ [entry], hnodup'⟩ } },
            none) := by
        unfold attributeEvent
        rw [handler]
        dsimp only
        rw [hadd]
      rw [List.map_cons, listen_cons_of_taken htaken]
      exact ih hentries' hnodup'

/-- The events of a statement make it, on a line of its own. -/
theorem listen_ownEvents (s : Statement) :
    listen handler s.ownEvents empty = (single s, none) := by
  have hattributes :=
    listen_attributes s (List.nil_append s.attributes.entries).symm .nil
      { lines := #[{ indent := 0, statements := [] }], comments := #[],
        current := none }
  unfold Statement.ownEvents
  rw [listen_cons_of_taken rfl, listen_cons_of_taken rfl]
  exact listen_append_eq_none_iff.2 ⟨_, hattributes, rfl⟩

end Lines

-- =============================================================== faults

/-- A reading that stops at a fault after some events. -/
structure Breaks (reading : Reading) (es : List Event) : Prop where
  events : reading.events = es
  stop : ∃ fault, reading.stop = .error fault

/-- A reading that breaks off behind other marks has their events in front. -/
theorem Breaks.after {reading : Reading} {es : List Event}
    (h : Breaks reading es) (marks : List Mark) :
    Breaks (reading.after marks) (marks.map (·.1) ++ es) := by
  refine ⟨?_, h.stop⟩
  rw [← h.events]
  exact List.map_append

/-- An attribute whose value is not faithful is not read. -/
theorem readAttribute_of_unfaithful {entry : String × Literal}
    (hname : Grammar.Name entry.1.toList) (hvalue : ¬ entry.2.Faithful)
    {rest : List Char} (hrest : EndsValue rest) :
    ∃ fault, readAttribute (attributeText entry ++ rest) = .error fault := by
  obtain ⟨fault, hfault⟩ := readValue_of_unfaithful hvalue hrest entry.1.toList
  -- The name ends at the colon, and the value follows at once.
  have hname' : Stops isNameChar (':' :: (entry.2.shown.toList ++ rest)) :=
    stops_cons rfl _
  have hcolon : Stops isSpace (':' :: (entry.2.shown.toList ++ rest)) :=
    stops_cons rfl _
  have hskip := skipSpace_complete space_nil hcolon
  have hskip' := skipSpace_complete space_nil (stops_shown entry.2 rest)
  rw [List.nil_append] at hskip hskip'
  refine ⟨fault, ?_⟩
  unfold attributeText
  rw [List.append_assoc, List.cons_append, readAttribute,
    readName_complete hname hname']
  dsimp only
  rw [hskip]
  dsimp only
  rw [if_pos rfl, hskip', hfault]

/-- A list of attributes breaks off where an attribute cannot be read. -/
theorem readAttributes_of_fault {space cs : List Char} {c : Char}
    (hspace : Space space) (hstart : Grammar.NameStart c)
    {fault : SyntaxFault × List Char}
    (h : readAttribute (c :: cs) = .error fault) :
    Breaks (readAttributes (space ++ c :: cs)) [] := by
  have hclose : c ≠ ')' := by
    rintro rfl
    exact absurd (startsName_iff.2 hstart) (by decide)
  have hskip : skipSpace (space ++ c :: cs) = c :: cs :=
    skipSpace_complete hspace (stops_cons (not_isSpace_of_nameStart hstart) cs)
  rw [readAttributes]
  -- The reader finds the attribute, since no name begins with the bracket.
  split
  · rename_i hnil
    rw [hskip] at hnil
    cases hnil
  · rename_i d more hcons
    obtain ⟨rfl, rfl⟩ := List.cons.inj (hskip.symm.trans hcons)
    rw [if_neg hclose]
    split
    · exact ⟨rfl, _, rfl⟩
    · rename_i hread
      rw [h] at hread
      cases hread

/-- A value that is not faithful stops the reader of attributes. -/
theorem readAttributes_head {entry : String × Literal}
    (hname : Grammar.Name entry.1.toList) (hvalue : ¬ entry.2.Faithful)
    {space rest : List Char} (hspace : Space space) (hrest : EndsValue rest) :
    Breaks (readAttributes (space ++ (attributeText entry ++ rest))) [] := by
  obtain ⟨fault, hfault⟩ := readAttribute_of_unfaithful hname hvalue hrest
  obtain ⟨c, more, hc, hstart⟩ := hname.start
  unfold attributeText at hfault ⊢
  rw [hc] at hfault ⊢
  exact readAttributes_of_fault hspace hstart hfault

/-- The attributes before such a value are read. By induction on the attributes.
The first one whose value its text does not keep is where the reading breaks
off. -/
theorem readAttributes_of_unfaithful {entries : List (String × Literal)}
    (hnames : ∀ entry ∈ entries, Grammar.Name entry.1.toList)
    (h : ¬ ∀ entry ∈ entries, entry.2.Faithful) {space : List Char}
    (hspace : Space space) (rest : List Char) :
    ∃ before after, entries = before ++ after
      ∧ Breaks (readAttributes (space ++ (attributeRow entries ++ ')' :: rest)))
        (before.map attributeEvent) := by
  induction entries generalizing space with
  | nil => exact absurd (fun entry hentry => absurd hentry List.not_mem_nil) h
  | cons entry entries ih =>
      obtain ⟨hname, hnames⟩ := List.forall_mem_cons.1 hnames
      cases entries with
      | nil =>
          rw [attributeRow_singleton]
          -- The attribute is the last one.
          refine ⟨[], _, rfl, readAttributes_head hname
            (fun hvalue => h (List.forall_mem_singleton.2 hvalue)) hspace ?_⟩
          rintro c ⟨⟩
          rfl
      | cons next entries =>
          rw [attributeRow_cons_cons, List.append_assoc, List.cons_append]
          -- The attribute is kept, and the reading goes on behind the blank
          -- after it.
          by_cases hvalue : entry.2.Faithful
          · have hattribute := attribute_attributeText hname hvalue
            have hends : (isSpace ' ' || decide (' ' = ')')) = true := rfl
            obtain ⟨mark, hmark, hread⟩ : ∃ mark : Mark,
                [attributeEvent entry] = [mark.1] ∧
                readAttributes (space ++ (attributeText entry
                    ++ ' ' :: (attributeRow (next :: entries) ++ ')' :: rest)))
                  = (readAttributes
                    (' '
                      :: (attributeRow (next :: entries) ++ ')' :: rest))).after
                    [mark] := readAttributes_attribute hspace hattribute hends
            obtain ⟨before, after, hentries, hbreaks⟩ :=
              ih hnames (fun hvalues =>
                  h (List.forall_mem_cons.2 ⟨hvalue, hvalues⟩))
                space_blank
            refine ⟨entry :: before, after, congrArg (entry :: ·) hentries, ?_⟩
            rw [hread, List.map_cons, (List.cons.inj hmark).1]
            exact hbreaks.after [mark]
          -- It is not kept, and the reading breaks off at once.
          · refine ⟨[], _, rfl, readAttributes_head hname hvalue hspace ?_⟩
            rintro c ⟨⟩
            rfl

/-- A statement breaks off where its list does. -/
theorem readStatement_of_breaks {guard reference name : List Char}
    {isGuard isReference : Bool} (hguard : Grammar.Flag ['?'] guard isGuard)
    (hreference : Grammar.Flag ['-', '>'] reference isReference)
    (hname : Grammar.Name name) {inner : List Char} {es : List Event}
    (h : Breaks (readAttributes inner) es) :
    Breaks (readStatement (guard ++ (reference ++ (name ++ '(' :: inner))))
      (.statement (String.ofList name) isReference isGuard :: es) := by
  obtain ⟨hevents, fault, hfault⟩ := h
  obtain ⟨hguard', hreference'⟩ :=
    readFlags_complete hguard hreference hname ('(' :: inner)
  have hread : readName (name ++ '(' :: inner) = .ok (name, '(' :: inner) :=
    readName_complete hname (stops_cons rfl inner)
  rw [readStatement, hguard']
  dsimp only
  rw [hreference']
  dsimp only
  rw [hread]
  dsimp only
  split
  · rename_i inner' hinner
    cases hinner
    rw [hfault, ← hevents]
    exact ⟨rfl, _, rfl⟩
  · rename_i hnone
    exact absurd rfl (hnone _)

/-- A line breaks off where its first statement does. -/
theorem readLine_of_breaks {cs : List Char} {c : Char}
    (hc : isSpace c = false ∧ c ≠ '#') {es : List Event}
    (h : Breaks (readStatement (c :: cs)) es) :
    Breaks (readLine (c :: cs)) (.line 0 :: es) := by
  obtain ⟨hevents, fault, hfault⟩ := h
  have hskip := skipSpace_complete space_nil (stops_cons hc.1 cs)
  rw [List.nil_append] at hskip
  have hindent : (c :: cs).takeWhile isIndent = [] :=
    List.takeWhile_cons_of_neg
      (by rw [isIndent_of_isSpace hc.1]; exact Bool.false_ne_true)
  -- The statements of the line stop with the first of them.
  have hfirst : readStatements (c :: cs) = readStatement (c :: cs) := by
    rw [readStatements]
    dsimp only
    split
    · rfl
    · rename_i rest hrest
      rw [hfault] at hrest
      cases hrest
  rw [readLine, hskip, hindent]
  dsimp only
  rw [if_neg hc.2, hfirst]
  exact Breaks.after ⟨hevents, fault, hfault⟩ [(.line 0, c :: cs)]

namespace Statement

/-- The text of a statement that is not faithful is no line. -/
theorem Named.readLine {s : Statement} (h : s.Named) (hlost : ¬ s.Faithful) :
    ∃ before after, s.attributes.entries = before ++ after
      ∧ Breaks (Outline.readLine s.text.toList)
        (.line 0 :: .statement s.name s.isReference s.isGuard
          :: before.map attributeEvent) := by
  have hguard := flag_markText s.isGuard ['?']
  have hreference := flag_markText s.isReference ['-', '>']
  -- Without attributes nothing could be lost.
  have hentries : s.attributes.entries ≠ [] := by
    intro hnil
    refine hlost fun entry hentry => ?_
    rw [hnil] at hentry
    exact absurd hentry List.not_mem_nil
  obtain ⟨inner, hinner⟩ : ∃ inner,
      inner = attributeRow s.attributes.entries ++ [')'] := ⟨_, rfl⟩
  obtain ⟨before, after, hsplit, hbreaks⟩ :=
    readAttributes_of_unfaithful h.attributes hlost space_nil []
  rw [List.nil_append, ← hinner] at hbreaks
  have hstatement := readStatement_of_breaks hguard hreference h.name hbreaks
  obtain ⟨c, more, hstart, hc⟩ :=
    (Grammar.Statement.bare hguard hreference h.name).start
  -- What the statement begins with does not depend on its list, so that the
  -- line is not taken for a blank one or for a comment.
  have htext : markText s.isGuard ['?'] ++ (markText s.isReference ['-', '>']
      ++ (s.name.toList ++ '(' :: inner)) = c :: (more ++ '(' :: inner) := by
    rw [← List.cons_append, ← hstart, List.append_assoc, List.append_assoc]
  rw [htext, String.ofList_toList] at hstatement
  rw [text_toList, attributesText_of_ne_nil hentries, ← hinner, htext]
  exact ⟨before, after, hsplit, readLine_of_breaks hc hstatement⟩

end Statement

-- ============================================================== one line

/-- There is no line feed in a name. -/
theorem newline_not_mem_name {name : List Char} (h : Grammar.Name name) :
    '\n' ∉ name := by
  cases h with
  | mk hstart hmore =>
      rw [List.mem_cons, not_or]
      constructor
      · rintro rfl
        exact absurd (startsName_iff.2 hstart) (by decide)
      · intro hmem
        exact absurd (isNameChar_iff.2 (hmore _ hmem)) (by decide)

/-- Nor in a row of attributes: what is shown of a value escapes it. -/
theorem newline_not_mem_attributeRow {entries : List (String × Literal)}
    (hnames : ∀ entry ∈ entries, Grammar.Name entry.1.toList) :
    '\n' ∉ attributeRow entries := by
  have hentry : ∀ entry : String × Literal, Grammar.Name entry.1.toList →
      '\n' ∉ attributeText entry := by
    intro entry hname
    unfold attributeText
    rw [List.mem_append, List.mem_cons, not_or, not_or]
    exact ⟨newline_not_mem_name hname, by decide,
      Literal.newline_not_mem_shown _⟩
  induction entries with
  | nil => exact List.not_mem_nil
  | cons entry entries ih =>
      obtain ⟨hname, hnames⟩ := List.forall_mem_cons.1 hnames
      cases entries with
      | nil =>
          rw [attributeRow_singleton]
          exact hentry entry hname
      | cons next entries =>
          rw [attributeRow_cons_cons, List.mem_append, List.mem_cons, not_or,
            not_or]
          exact ⟨hentry entry hname, by decide, ih hnames⟩

namespace Statement

/-- A statement is written in one line. -/
theorem Named.splitLines {s : Statement} (h : s.Named) :
    Outline.splitLines s.text.toList = [s.text.toList] := by
  -- The marks have none, and the brackets have none.
  have hmark : ∀ (present : Bool) (word : List Char), '\n' ∉ word →
      '\n' ∉ markText present word := by
    intro present word hword
    cases present with
    | false => exact List.not_mem_nil
    | true => exact hword
  have hattributes : '\n' ∉ (attributesText s.attributes).toList := by
    by_cases hnil : s.attributes.entries = []
    · rw [attributesText_of_nil hnil]
      exact List.not_mem_nil
    · rw [attributesText_of_ne_nil hnil, List.mem_cons, List.mem_append, not_or,
        not_or]
      exact ⟨by decide, newline_not_mem_attributeRow h.attributes, by decide⟩
  rw [splitLines_eq_splitOn]
  refine List.splitOn_eq_singleton ?_
  rw [text_toList, List.mem_append, List.mem_append, List.mem_append, not_or,
    not_or, not_or]
  exact ⟨hmark _ _ (by decide), hmark _ _ (by decide),
    newline_not_mem_name h.name, hattributes⟩

/-- Nothing is kept from a listener where there is no comment. -/
theorem filter_told {comments : Bool} {es : List Event}
    (h : ∀ e ∈ es, e.isComment = false) :
    es.filter (told comments) = es := by
  refine List.filter_eq_self.2 fun e he => ?_
  unfold told
  rw [h e he, Bool.not_false, Bool.or_true]

/-- A faithful statement is read back from its text. -/
theorem Named.read_text {s : Statement} (h : s.Named) (hfaithful : s.Faithful)
    (comments : Bool) :
    read comments Lines.handler s.text Lines.empty
      = (Lines.single s, none) := by
  obtain ⟨hevents, hstop⟩ := readLine_complete (h.line hfaithful)
  -- There is no comment among the events of a statement, so it does not matter
  -- whether the handler is told of comments.
  have hsilent : ∀ e ∈ s.ownEvents, e.isComment = false := by
    unfold ownEvents
    rw [List.forall_mem_cons, List.forall_mem_cons, List.forall_mem_append,
      List.forall_mem_map]
    exact ⟨rfl, rfl, fun entry _ => rfl, by decide⟩
  refine read_eq_none_iff.2 ⟨?_, ?_⟩
  · unfold Legible
    rw [h.splitLines, List.forall_mem_singleton]
    exact ⟨_, hstop⟩
  · unfold events
    rw [h.splitLines, List.flatMap_singleton, lineEvents_eq_filter, hevents,
      filter_told hsilent]
    exact Lines.listen_ownEvents s

/-- A statement that is not faithful is not read back. -/
theorem Named.read_text_of_unfaithful {s : Statement} (h : s.Named)
    (hlost : ¬ s.Faithful) (comments : Bool) :
    ∃ kept near cause,
      read comments Lines.handler s.text Lines.empty
        = (kept, some (.malformed 1 near cause))
        ∧ ∀ line ∈ kept.lines, line.statements = [] := by
  obtain ⟨before, after, hsplit, hevents, ⟨cause, rest⟩, hfault⟩ :=
    h.readLine hlost
  -- The attributes before the one that is lost are collected as for a statement
  -- that has only them.
  have hnodup := Attributes.nodup_of_append hsplit
  have hattributes :=
    Lines.listen_attributes { s with attributes := ⟨before, hnodup⟩ }
      (List.nil_append before).symm .nil
      { lines := #[{ indent := 0, statements := [] }], comments := #[],
        current := none }
  have hsilent : ∀ e ∈ Event.line 0 :: .statement s.name s.isReference s.isGuard
      :: before.map attributeEvent, e.isComment = false := by
    rw [List.forall_mem_cons, List.forall_mem_cons, List.forall_mem_map]
    exact ⟨rfl, rfl, fun entry _ => rfl⟩
  obtain ⟨kept, hkept⟩ : ∃ kept : Lines, kept
      = { lines := #[{ indent := 0, statements := [] }], comments := #[],
          current := some { s with attributes := ⟨before, hnodup⟩ } } := ⟨_,
          rfl⟩
  -- All that the collector is told of it takes. The fault comes from the
  -- reading, with the statement still open.
  have hlisten : listen Lines.handler
      (lineEvents comments s.text.toList) Lines.empty
      = (kept, none) := by
    rw [lineEvents_eq_filter, hevents, filter_told hsilent,
      listen_cons_of_taken rfl, listen_cons_of_taken rfl, hkept]
    exact hattributes
  have hoffer : offer Lines.handler 1
      ((Outline.readLine s.text.toList).offered comments) Lines.empty
      = (kept, none) := offer_eq_none_iff.2 hlisten
  refine ⟨kept, near rest, cause, ?_, ?_⟩
  · unfold read
    rw [h.splitLines, readLines, hoffer]
    dsimp only
    rw [hfault]
  · rw [hkept]
    intro line hline
    rw [Array.mem_singleton.1 hline]

end Statement

/-- The statements of a text that was read have names of the grammar. -/
theorem Lines.named_of_read {comments : Bool} {text : String} {kept : Lines}
    (h : read comments Lines.handler text Lines.empty = (kept, none)) :
    kept.Named := by
  obtain ⟨hlegible, hlisten⟩ := read_eq_none_iff.1 h
  have hempty : Lines.empty.Named := ⟨(fun line hline => nomatch hline), nofun⟩
  exact hempty.listen (named_of_legible hlegible comments) hlisten

/-- What becomes of the text of a statement that was read: if its values are
all written as outlines write them, reading the text gives one line without
indentation with that statement and nothing else. Otherwise it meets a fault
of spelling, and gives no statement. -/
theorem Statement.read_text_of_collected (comments' : Bool) {comments : Bool}
    {text : String} {kept : Lines}
    (h : read comments Lines.handler text Lines.empty = (kept, none))
    {line : Line} (hline : line ∈ kept.lines) {s : Statement}
    (hs : s ∈ line.statements) :
    (s.Faithful → read comments' Lines.handler s.text Lines.empty
        = ({ lines := #[{ indent := 0, statements := [s] }], comments := #[],
             current := none },
            none))
      ∧ (¬ s.Faithful → ∃ kept' near cause,
        read comments' Lines.handler s.text Lines.empty
          = (kept', some (.malformed 1 near cause))
          ∧ ∀ line' ∈ kept'.lines, line'.statements = []) := by
  have hnamed := (Lines.named_of_read h).lines line hline s hs
  exact ⟨fun hfaithful => hnamed.read_text hfaithful comments',
    fun hlost => hnamed.read_text_of_unfaithful hlost comments'⟩

/-- A guard with a number. -/
def cutGuard : Statement :=
  { name := "cut", isReference := true, isGuard := true
    attributes := ⟨[("depth", .int 3)], by decide⟩ }

/-- A task with an apostrophe in a text. -/
def sayTask : Statement :=
  { name := "say", isReference := false, isGuard := false
    attributes := ⟨[("text", .text "it's")], by decide⟩ }

/-- Two statements of one line, of which the first is read back. -/
theorem Statement.read_text_of_collected_apostrophe :
    (read true Lines.handler
      "?->cut(depth: 3) say(text: \"it's\")" Lines.empty).2 = none
      ∧ read true Lines.handler "?->cut(depth:3)" Lines.empty
        = ({ lines := #[{ indent := 0, statements := [cutGuard] }],
             comments := #[], current := none }, none)
      ∧ ∃ kept near cause,
        read true Lines.handler "say(text:\"it\\'s\")" Lines.empty
        = (kept, some (.malformed 1 near cause)) := by
  have hread : read true Lines.handler
      "?->cut(depth: 3) say(text: \"it's\")" Lines.empty
      = ({ lines := #[{ indent := 0, statements := [cutGuard, sayTask] }],
           comments := #[], current := none }, none) := by
    with_unfolding_all rfl
  have hline : ({ indent := 0, statements := [cutGuard, sayTask] } : Line)
      ∈ #[{ indent := 0, statements := [cutGuard, sayTask] }] :=
    Array.mem_singleton.2 rfl
  -- The two texts of the statements that are collected here.
  have hcut : cutGuard.text = "?->cut(depth:3)" := by decide +kernel
  have hsay : sayTask.text = "say(text:\"it\\'s\")" := by decide +kernel
  have hfaithful : cutGuard.Faithful := List.forall_mem_singleton.2 trivial
  -- An apostrophe is written with a backslash that the reader refuses.
  have hlost : ¬ sayTask.Faithful := by
    intro h
    have htext : TextKept "it's".toList := h _ List.mem_cons_self
    exact absurd (htext.restorable '\x27' (by decide)) (by decide +kernel)
  refine ⟨congrArg Prod.snd hread, ?_, ?_⟩
  · have hback := (Statement.read_text_of_collected true hread hline
      List.mem_cons_self).1 hfaithful
    rw [hcut] at hback
    exact hback
  · obtain ⟨kept, near, cause, hback, -⟩ :=
      (Statement.read_text_of_collected true hread
        hline (List.mem_cons_of_mem _ List.mem_cons_self)).2 hlost
    rw [hsay] at hback
    exact ⟨kept, near, cause, hback⟩

end TaskTree.Outline
