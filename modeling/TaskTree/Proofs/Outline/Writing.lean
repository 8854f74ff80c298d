/-
What the reader makes of a written value.

Values are written with more escapes than outlines know: an apostrophe and
NUL get a backslash, and a character that cannot be seen becomes a code
point in braces. A written infinity is no numeral. A value is `Faithful` if
nothing of the kind is written of it. The grammar then derives what is
written, and takes it for the value itself (`Literal.Faithful.value`); of any
other value the reader stops at a fault (`readValue_of_unfaithful`).
-/
import TaskTree.Proofs.Number.Layout
import TaskTree.Proofs.Outline.Spelling

namespace TaskTree

-- ============================================================ characters

namespace Text

/-- A character that is written as itself or with a letter that outlines
know, wherever it stands in a text. -/
def Restorable (c : Char) : Prop :=
  c = '\t' ∨ c = '\r' ∨ c = '\n' ∨ (isVisible c = true ∧ c ≠ '\x27')

/-- The characters that can be restored are told apart by computation. -/
instance : DecidablePred Restorable := fun c =>
  inferInstanceAs (Decidable
      (c = '\t' ∨ c = '\r' ∨ c = '\n' ∨ (isVisible c = true ∧ c ≠ '\x27')))

/-- A character that is written so in a given style. -/
def Kept (style : EscapeStyle) (c : Char) : Prop :=
  Restorable c ∧ (style.extender = true → combines c = false)

end Text

namespace Outline

open Text

/-- What no escape begins with. -/
def Unknown (es : List Char) : Prop :=
  ∀ whole rest, ∃ fault, Quoted.readEscape whole (es ++ rest) = .error fault

/-- How a character is written: as itself, with a letter that outlines know,
or with an escape that they do not know. -/
inductive Written (style : EscapeStyle) (c : Char) : List Char → Prop where
  | raw : Kept style c → c ≠ '"' → c ≠ '\\' → c ≠ '\n' → Written style c [c]
  | short {e : Char} :
      Kept style c → Grammar.Short e c → Written style c ['\\', e]
  | unknown {es : List Char} :
      ¬ Kept style c → Unknown es → '\n' ∉ es → Written style c ('\\' :: es)

/-- The digits of a code point are none that outlines can read. -/
theorem unknown_codePoint (ds : List Char) : Unknown ('u' :: '\x7b' :: ds) := by
  intro whole rest
  have hnone : Quoted.fourHex ('\x7b' :: (ds ++ rest))
      = ([], '\x7b' :: (ds ++ rest)) := rfl
  rw [List.cons_append, List.cons_append, readEscape_u, Quoted.readUnicode,
    hnone]
  exact ⟨_, rfl⟩

/-- A numeral has no line feed in it. -/
theorem newline_not_mem_toDigits (n : Nat) : '\n' ∉ Nat.toDigits 16 n := by
  have hdigit : ∀ k < 16, '\n' ∉ [Nat.digitChar k] := by decide
  induction n using Nat.strongRecOn with
  | ind n ih =>
      rw [Nat.toDigits_eq_if (by decide)]
      split
      · rename_i hlt
        exact hdigit n hlt
      · rw [List.mem_append, not_or]
        exact ⟨ih _ (by omega), hdigit _ (Nat.mod_lt n (by decide))⟩

/-- A character written by its number is lost: the reader knows no such
escape. -/
theorem written_codePoint {style : EscapeStyle} {c : Char}
    (h : ¬ Kept style c) :
    Written style c (codePoint c) := by
  refine .unknown h (unknown_codePoint _) ?_
  simp [newline_not_mem_toDigits]

/-- A backslash before a character without a meaning is no escape. -/
theorem unknown_of_shortEscape? {c : Char}
    (hshort : Quoted.shortEscape? c = none) (hu : c ≠ 'u') :
    Unknown [c] := by
  intro whole rest
  rw [List.singleton_append, Quoted.readEscape, hshort]
  dsimp only
  rw [if_neg hu]
  exact ⟨_, rfl⟩

/-- Values are written in styles that escape both quotes. -/
theorem escapeChar_written {style : EscapeStyle}
    (hsingle : style.singleQuote = true) (hdouble : style.doubleQuote = true)
    (c : Char) : Written style c (escapeChar style c) := by
  -- By the cases of `escapeChar`: the characters with an escape of their own,
  -- then those that combine, are visible or are hidden.
  unfold escapeChar
  split
  · refine .unknown ?_ (unknown_of_shortEscape? rfl (by decide)) (by decide)
    rintro ⟨hrestorable, -⟩
    exact absurd hrestorable (by decide +kernel)
  · exact .short ⟨.inl rfl, fun _ => by decide +kernel⟩ .tab
  · exact .short ⟨.inr (.inl rfl), fun _ => by decide +kernel⟩ .carriageReturn
  · exact .short ⟨.inr (.inr (.inl rfl)), fun _ => by decide +kernel⟩ .lineFeed
  · exact .short ⟨by decide +kernel, fun _ => by decide +kernel⟩ .backslash
  · rw [if_pos hdouble]
    exact .short ⟨by decide +kernel, fun _ => by decide +kernel⟩ .quote
  · rw [if_pos hsingle]
    refine .unknown ?_ (unknown_of_shortEscape? rfl (by decide)) (by decide)
    rintro ⟨hrestorable, -⟩
    exact absurd hrestorable (by decide +kernel)
  -- A character without an escape of its own: written by its number, as is a
  -- hidden one, it is lost.
  · rename_i hnul htab hreturn hline hbackslash hquote hsingle
    split
    · rename_i hcombines
      obtain ⟨hextender, hcombines⟩ := Bool.and_eq_true_iff.1 hcombines
      refine written_codePoint fun hkept => ?_
      rw [hkept.2 hextender] at hcombines
      cases hcombines
    · rename_i halone
      have hmind : style.extender = true → combines c = false :=
        fun hextender =>
          eq_false_of_ne_true fun hcombines =>
            halone (Bool.and_eq_true_iff.2 ⟨hextender, hcombines⟩)
      split
      · rename_i hvisible
        exact .raw ⟨.inr (.inr (.inr ⟨hvisible, hsingle⟩)), hmind⟩ hquote
          hbackslash hline
      · rename_i hhidden
        refine written_codePoint fun hkept => ?_
        obtain htab' | hreturn' | hline' | ⟨hvisible, -⟩ := hkept.1
        · exact htab htab'
        · exact hreturn hreturn'
        · exact hline hline'
        · exact hhidden hvisible

-- ========================================================= quoted texts

/-- What is written for a character stays on its line. -/
theorem Written.newline_not_mem {style : EscapeStyle} {c : Char}
    {cs : List Char} (h : Written style c cs) : '\n' ∉ cs := by
  cases h with
  | raw _ _ _ hline =>
      rw [List.mem_singleton]
      exact hline.symm
  | short _ hshort => cases hshort <;> decide
  | unknown _ _ hline =>
      rw [List.mem_cons, not_or]
      exact ⟨by decide, hline⟩

/-- A character that is kept, before others that are. -/
theorem Written.body {style : EscapeStyle} {c : Char} {cs : List Char}
    (h : Written style c cs) (hkept : Kept style c) {body values : List Char}
    (hbody : Grammar.Body body values) :
    Grammar.Body (cs ++ body) (c :: values) := by
  cases h with
  | raw _ hquote hbackslash => exact .raw hquote hbackslash hbody
  | short _ hshort => exact .escape (.short hshort) hbody
  | unknown hlost => exact absurd hkept hlost

/-- What is read after the beginning of a quoted text. By induction along the
body: what it spells is read off before the text that fails. -/
theorem readQuoted_append {body values : List Char}
    (h : Grammar.Body body values) {whole rest : List Char}
    {fault : SyntaxFault × List Char}
    (hrest : Quoted.read whole rest = .error fault) :
    Quoted.read whole (body ++ rest) = .error fault := by
  induction h with
  | nil => exact hrest
  | raw hquote hslash hbody ih =>
      rw [List.cons_append, Quoted.read, if_neg hquote, if_neg hslash, ih]
  | @escape es cs values value hescape hbody ih =>
      have hread := readEscape_complete hescape whole (cs ++ rest)
      rw [List.cons_append, List.append_assoc, Quoted.read, if_neg (by decide),
        if_pos rfl]
      split
      · rename_i hfault
        rw [hread] at hfault
        cases hfault
      · rename_i value' after hvalue
        rw [hread] at hvalue
        cases hvalue
        rw [ih]

/-- A character that is not kept stops the reader. -/
theorem Written.readQuoted {style : EscapeStyle} {c : Char} {cs : List Char}
    (h : Written style c cs) (hlost : ¬ Kept style c) (whole rest : List Char) :
    ∃ fault, Quoted.read whole (cs ++ rest) = .error fault := by
  cases h with
  | raw hkept => exact absurd hkept hlost
  | short hkept => exact absurd hkept hlost
  -- A lost character is written by an escape that the reader refuses.
  | @unknown es _ hunknown =>
      obtain ⟨fault, hfault⟩ := hunknown whole rest
      refine ⟨fault, ?_⟩
      rw [List.cons_append, Quoted.read, if_neg (by decide), if_pos rfl]
      split
      · rename_i fault' hfault'
        rw [hfault] at hfault'
        cases hfault'
        rfl
      · rename_i hvalue
        rw [hfault] at hvalue
        cases hvalue

/-- What stands between the quotes of a written text has no line feed. -/
theorem newline_not_mem_escapeValue (cs : List Char) :
    '\n' ∉ escapeValue cs := by
  cases cs with
  | nil => exact List.not_mem_nil
  | cons c rest =>
      rw [escapeValue, List.mem_append, List.mem_flatMap, not_or]
      refine ⟨(escapeChar_written rfl rfl c).newline_not_mem, ?_⟩
      rintro ⟨d, -, hd⟩
      exact (escapeChar_written rfl rfl d).newline_not_mem hd

/-- A text that is written as outlines write it: all its characters are, and
the first, which would combine with the quote before it, does not combine. -/
structure TextKept (cs : List Char) : Prop where
  restorable : ∀ c ∈ cs, Restorable c
  first : ∀ c, cs.head? = some c → combines c = false

/-- Inside a text the extenders need not be minded. -/
theorem kept_inner_iff {c : Char} : Kept .inner c ↔ Restorable c :=
  ⟨And.left, fun h => ⟨h, nofun⟩⟩

/-- Restorable characters are a body. -/
theorem body_inner {cs : List Char} (h : ∀ c ∈ cs, Restorable c) :
    Grammar.Body (cs.flatMap (escapeChar .inner)) cs := by
  induction cs with
  | nil => exact .nil
  | cons c rest ih =>
      obtain ⟨hc, hrest⟩ := List.forall_mem_cons.1 h
      rw [List.flatMap_cons]
      exact (escapeChar_written rfl rfl c).body (kept_inner_iff.2 hc) (ih hrest)

/-- One that is not restorable ends the reading of what was written. -/
theorem readQuoted_inner {cs : List Char} (h : ¬ ∀ c ∈ cs, Restorable c)
    (whole rest : List Char) :
    ∃ fault, Quoted.read whole (cs.flatMap (escapeChar .inner) ++ rest)
      = .error fault := by
  induction cs with
  | nil => exact absurd (fun c hc => absurd hc List.not_mem_nil) h
  | cons c more ih =>
      have hwritten : Written .inner c (escapeChar .inner c) :=
        escapeChar_written rfl rfl c
      rw [List.flatMap_cons, List.append_assoc]
      by_cases hc : Restorable c
      · obtain ⟨fault, hfault⟩ :=
          ih fun hmore => h (List.forall_mem_cons.2 ⟨hc, hmore⟩)
        have hbody := hwritten.body (kept_inner_iff.2 hc) .nil
        rw [List.append_nil] at hbody
        exact ⟨fault, readQuoted_append hbody hfault⟩
      · exact hwritten.readQuoted (mt kept_inner_iff.1 hc) whole _

/-- The first character minds whether it combines, and the others do not. -/
theorem TextKept.cons_iff {c : Char} {rest : List Char} :
    TextKept (c :: rest) ↔ Kept .initial c ∧ ∀ d ∈ rest, Restorable d := by
  constructor
  · intro h
    obtain ⟨hc, hrest⟩ := List.forall_mem_cons.1 h.restorable
    exact ⟨⟨hc, fun _ => h.first c rfl⟩, hrest⟩
  · rintro ⟨⟨hc, hfirst⟩, hrest⟩
    refine ⟨List.forall_mem_cons.2 ⟨hc, hrest⟩, fun d hd => ?_⟩
    cases hd
    exact hfirst rfl

/-- What stands between the quotes of a written text that is kept. -/
theorem TextKept.body {cs : List Char} (h : TextKept cs) :
    Grammar.Body (escapeValue cs) cs := by
  cases cs with
  | nil => exact .nil
  | cons c rest =>
      obtain ⟨hc, hrest⟩ := TextKept.cons_iff.1 h
      exact (escapeChar_written rfl rfl c).body hc (body_inner hrest)

/-- A text that is not kept is not read back from what is written. -/
theorem readQuoted_escapeValue {cs : List Char} (h : ¬ TextKept cs)
    (whole rest : List Char) :
    ∃ fault, Quoted.read whole (escapeValue cs ++ rest) = .error fault := by
  cases cs with
  | nil => exact absurd ⟨(fun c hc => absurd hc List.not_mem_nil), nofun⟩ h
  | cons c more =>
      have hwritten : Written .initial c (escapeChar .initial c) :=
        escapeChar_written rfl rfl c
      rw [escapeValue, List.append_assoc]
      -- The failure is at the first character or behind it.
      by_cases hc : Kept .initial c
      · obtain ⟨fault, hfault⟩ :=
          readQuoted_inner
            (fun hmore => h (TextKept.cons_iff.2 ⟨hc, hmore⟩)) whole rest
        have hbody := hwritten.body hc .nil
        rw [List.append_nil] at hbody
        exact ⟨fault, readQuoted_append hbody hfault⟩
      · exact hwritten.readQuoted hc whole _

-- =============================================================== tokens

/-- A word without brackets and separators. -/
theorem endsToken_of_all {word : List Char}
    (h : (word.all fun d => !endsToken d) = true) :
    ∀ d ∈ word, endsToken d = false := fun d hd => by
  have hd := List.all_eq_true.1 h d hd
  rw [Bool.not_eq_true'] at hd
  exact hd

/-- A word that stands for a value is a way to write it. -/
theorem value_of_word {c : Char} {rest : List Char} {value : Literal}
    (hall : ((c :: rest).all fun d => !endsToken d) = true)
    (hstart : c ≠ '#' ∧ c ≠ ':' ∧ c ≠ '"')
    (htoken : Literal.ofToken? (c :: rest) = some value) :
    Grammar.Value (c :: rest) value :=
  .token (fun d hd => endsToken_iff.1 (endsToken_of_all hall d hd)) hstart.1
    hstart.2.1 hstart.2.2 htoken

section

open Numeral

variable {cs : List Char} (hall : ∀ c ∈ cs, NumberChar c)
include hall

/-- A number is none of the words. -/
theorem ofToken?_of_number :
    Literal.ofToken? cs = if cs.any Literal.marksFloat then
      (Numeral.read cs).map fun n =>
        .float n.toFloat else (readInt64 cs).map .int := by
  have hword : ∀ c more, ¬ NumberChar c → cs ≠ c :: more := by
    rintro c more hc rfl
    exact hc (hall c List.mem_cons_self)
  unfold Literal.ofToken?
  rw [if_neg (hword _ _ (by decide)), if_neg (hword _ _ (by decide)),
    if_neg (hword _ _ (by decide))]

/-- So is a number. -/
theorem value_of_number (hne : cs ≠ []) {value : Literal}
    (htoken : Literal.ofToken? cs = some value) : Grammar.Value cs value := by
  cases cs with
  | nil => exact absurd rfl hne
  | cons c rest =>
      have hc := hall c List.mem_cons_self
      refine .token (fun d hd => ?_) (hc.ne (by decide)) (hc.ne (by decide))
        (hc.ne (by decide)) htoken
      have hd := hall d hd
      refine ⟨hd.ne (by decide), hd.ne (by decide), ?_⟩
      rintro (hspace | htab | hreturn)
      · exact hd.ne (by decide) hspace
      · exact hd.ne (by decide) htab
      · exact hd.ne (by decide) hreturn

end

/-- An integer is written by its decimal numeral. -/
theorem value_int (i : Int64) :
    Grammar.Value (toString i.toInt).toList (.int i) := by
  have hall := Numeral.toString_numberChar i.toInt
  have hmarks : (toString i.toInt).toList.any Literal.marksFloat = false := by
    refine List.any_eq_false.2 fun c hc hmark => ?_
    unfold Literal.marksFloat at hmark
    rw [Bool.or_eq_true, Bool.or_eq_true, decide_eq_true_iff,
      decide_eq_true_iff, decide_eq_true_iff]
      at hmark
    rcases Numeral.digit_or_sign_of_mem_toString i.toInt c hc with hdigit | rfl
    · rcases hmark with (rfl | rfl) | rfl <;> cases hdigit
    · exact absurd hmark (by decide)
  refine value_of_number hall (Numeral.toString_ne_nil _) ?_
  rw [ofToken?_of_number hall, hmarks, readInt64_toString]
  rfl

/-- A finite float is written by its shortest numeral. -/
theorem value_float {x : Float} {significand : Nat} {exponent : Int}
    (h : Binary64.shape x = .finite significand exponent) :
    Grammar.Value (Binary64.text x).toList (.float x) := by
  -- The numeral has a mark of floats in it, so it is not read as an integer.
  have hall := Binary64.text_numberChar h
  obtain ⟨n, hread, hfloat⟩ := Binary64.read_text h
  have hmarks : (Binary64.text x).toList.any Literal.marksFloat = true := by
    rw [List.any_eq_true]
    rcases Binary64.text_marked h with hmark | hmark
    · exact ⟨_, hmark, rfl⟩
    · exact ⟨_, hmark, rfl⟩
  have hne : (Binary64.text x).toList ≠ [] := by
    intro hnil
    rw [hnil] at hmarks
    cases hmarks
  refine value_of_number hall hne ?_
  rw [ofToken?_of_number hall, hmarks, if_pos rfl, hread, ← hfloat]
  rfl

/-- NaN and the infinities. -/
theorem text_of_not_finite {x : Float}
    (h : ∀ significand exponent,
      Binary64.shape x ≠ .finite significand exponent) :
    (Binary64.text x).toList
      ∈ [['N', 'a', 'N'], ['i', 'n', 'f'], ['-', 'i', 'n', 'f']] := by
  unfold Binary64.text
  dsimp only
  cases hshape : Binary64.shape x with
  | nan =>
      show "NaN".toList ∈ _
      decide
  | infinite =>
      dsimp only
      rw [String.toList_ofList]
      cases Binary64.isNegative x <;> decide
  | finite significand exponent => exact absurd hshape (h significand exponent)

-- =============================================================== values

namespace Literal

/-- A value that is written as outlines write it. -/
def Faithful : Literal → Prop
  | .float x =>
    ∃ significand exponent, Binary64.shape x = .finite significand exponent
  | .text s => TextKept s.toList
  | _ => True

/-- The grammar takes what is written of a faithful value for that value. By
kind of value: three words, two kinds of number and a quoted text. -/
theorem Faithful.value {v : Literal} (h : v.Faithful) :
    Grammar.Value v.shown.toList v := by
  cases v with
  | null => exact value_of_word rfl (by decide) rfl
  | bool value =>
      cases value with
      | false => exact value_of_word rfl (by decide) rfl
      | true => exact value_of_word rfl (by decide) rfl
  | int value => exact value_int value
  | float x =>
      obtain ⟨significand, exponent, hshape⟩ := h
      exact value_float hshape
  | text s =>
      have hvalue := Grammar.Value.quoted (TextKept.body h)
      rw [String.ofList_toList] at hvalue
      unfold shown Text.quotedValue
      rw [String.toList_ofList]
      exact hvalue

/-- A value is written in one line. -/
theorem newline_not_mem_shown (v : Literal) : '\n' ∉ v.shown.toList := by
  cases v with
  | null => decide
  | bool value => cases value <;> decide
  | int value =>
      intro hline
      exact (Numeral.toString_numberChar value.toInt _ hline).ne (by decide) rfl
  | float x =>
      intro hline
      -- A float without a numeral is written by one of three words.
      by_cases hshape : ∃ significand exponent,
        Binary64.shape x = .finite significand exponent
      · obtain ⟨significand, exponent, hshape⟩ := hshape
        exact (Binary64.text_numberChar hshape _ hline).ne (by decide) rfl
      · have htext := text_of_not_finite fun significand exponent h =>
          hshape ⟨significand, exponent, h⟩
        have hall : ∀ cs
            ∈ [['N', 'a', 'N'], ['i', 'n', 'f'], ['-', 'i', 'n', 'f']],
              '\n' ∉ cs := by
          decide
        exact hall _ htext hline
  | text s =>
      unfold shown Text.quotedValue
      rw [String.toList_ofList, List.cons_append, List.mem_cons,
        List.mem_append, not_or, not_or]
      exact ⟨by decide, newline_not_mem_escapeValue _, by decide⟩

/-- A value that is not faithful is a number that is not finite, or a text. -/
theorem shown_of_unfaithful {v : Literal} (h : ¬ v.Faithful) :
    v.shown.toList ∈ [['N', 'a', 'N'], ['i', 'n', 'f'], ['-', 'i', 'n', 'f']]
      ∨ ∃ cs, ¬ TextKept cs
      ∧ v.shown.toList = '"' :: (escapeValue cs ++ ['"']) := by
  cases v with
  | null | bool | int => exact absurd trivial h
  | float x => exact .inl (text_of_not_finite fun significand exponent hshape =>
      h ⟨significand, exponent, hshape⟩)
  | text s =>
      refine .inr ⟨s.toList, h, ?_⟩
      unfold shown Text.quotedValue
      rw [String.toList_ofList]
      rfl

end Literal

/-- What is written of a value does not begin with a separator. -/
theorem stops_shown (v : Literal) (rest : List Char) :
    Stops isSpace (v.shown.toList ++ rest) := by
  by_cases h : v.Faithful
  · exact h.value.stops rest
  · rcases Literal.shown_of_unfaithful h with hword | ⟨cs, -, hquoted⟩
    · simp only [List.mem_cons, List.not_mem_nil, or_false] at hword
      rcases hword with hword | hword | hword
      all_goals
        rw [hword]
        exact stops_cons rfl _
    · rw [hquoted]
      exact stops_cons rfl _

/-- A written word that is no value. -/
theorem readValue_of_word {c : Char} {word rest : List Char}
    (hall : ((c :: word).all fun d => !endsToken d) = true)
    (hstart : c ≠ '#' ∧ c ≠ ':' ∧ c ≠ '"')
    (htoken : Literal.ofToken? (c :: word) = none) (hrest : EndsValue rest)
    (name : List Char) :
    ∃ fault, readValue name (c :: word ++ rest) = .error fault := by
  have hall := endsToken_of_all hall
  -- The word is read as one token: it starts none of the other forms, and the
  -- character behind it ends it.
  obtain ⟨hhash, hcolon, hquote⟩ := hstart
  have hclose : c ≠ ')' := by
    rintro rfl
    exact absurd (hall _ List.mem_cons_self) (by decide)
  have hopen : c ≠ '(' := by
    rintro rfl
    exact absurd (hall _ List.mem_cons_self) (by decide)
  have hinside : ∀ d ∈ c :: word, (!endsToken d) = true := fun d hd => by
    rw [hall d hd]
    rfl
  have hstop : Stops (fun d => !endsToken d) rest :=
    fun d hd => congrArg (! ·) (hrest d hd)
  have hstray : ¬ (c = '#' ∨ c = ':' ∨ c = '(') :=
    not_or.2 ⟨hhash, not_or.2 ⟨hcolon, hopen⟩⟩
  rw [List.cons_append, readValue, if_neg hclose, if_neg hquote, if_neg hstray,
    readToken, ← List.cons_append, takeWhile_append hinside hstop, htoken]
  exact ⟨_, rfl⟩

/-- The reader stops at what is written of a value that is not faithful. What is
not faithful is written as a word that is no value, or as a text that is not
kept. -/
theorem readValue_of_unfaithful {v : Literal} (h : ¬ v.Faithful)
    {rest : List Char} (hrest : EndsValue rest) (name : List Char) :
    ∃ fault, readValue name (v.shown.toList ++ rest) = .error fault := by
  rcases Literal.shown_of_unfaithful h with hword | ⟨cs, hlost, hquoted⟩
  · simp only [List.mem_cons, List.not_mem_nil, or_false] at hword
    rcases hword with hword | hword | hword
    all_goals
      rw [hword]
      exact readValue_of_word rfl (by decide) rfl hrest name
  · obtain ⟨fault, hfault⟩ :=
      readQuoted_escapeValue hlost
        ('"' :: (escapeValue cs ++ '"' :: rest)) ('"' :: rest)
    have hshown : v.shown.toList ++ rest
        = '"' :: (escapeValue cs ++ '"' :: rest) := by
      rw [hquoted, List.cons_append, List.append_assoc]
      rfl
    rw [hshown, readValue, if_neg (by decide), if_pos rfl, hfault]
    exact ⟨_, rfl⟩

end Outline

end TaskTree
