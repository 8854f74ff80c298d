/-
Finite maps from names, kept in ascending order of the names.

The order is part of the type's contract: `names` is what a roster shows
of itself, and it is the order of the code points whatever the order of
the insertions was.
-/

namespace TaskTree

/-- Entries in the ascending order of their names, so that no name occurs
twice. -/
abbrev Ascending {α : Type} (entries : List (String × α)) : Prop :=
  entries.Pairwise fun a b => a.1 < b.1

/-- A finite map from names, listed in ascending order. -/
structure Roster (α : Type) where
  entries : List (String × α)
  ascending : Ascending entries

namespace Roster

variable {α : Type}

/-- The roster without entries. -/
def empty : Roster α := ⟨[], .nil⟩

instance : Inhabited (Roster α) := ⟨empty⟩

/-- What stands under a name in a list of entries. -/
def look (name : String) : List (String × α) → Option α
  | [] => none
  | (key, value) :: rest => if key = name then some value else look name rest

/-- A list of entries with one more, in its place; an entry of the same
name is replaced. -/
def place (name : String) (value : α) : List (String × α) → List (String × α)
  | [] => [(name, value)]
  | (key, old) :: rest =>
    if key = name then (name, value) :: rest
    else if name < key then (name, value) :: (key, old) :: rest
    else (key, old) :: place name value rest

theorem mem_place {name : String} {value : α} {entry : String × α}
    {entries : List (String × α)} (h : entry ∈ place name value entries) :
    entry = (name, value) ∨ entry ∈ entries := by
  induction entries with
  | nil => simpa [place] using h
  | cons first rest ih =>
    simp only [place] at h
    split at h
    · rcases List.mem_cons.1 h with h | h
      · exact .inl h
      · exact .inr (List.mem_cons_of_mem _ h)
    · split at h
      · exact (List.mem_cons.1 h).imp id id
      · rcases List.mem_cons.1 h with h | h
        · exact .inr (h ▸ List.mem_cons_self)
        · exact (ih h).imp id (List.mem_cons_of_mem _)

theorem ascending_place (name : String) (value : α)
    {entries : List (String × α)} (h : Ascending entries) :
    Ascending (place name value entries) := by
  induction entries with
  | nil => simp [place, Ascending]
  | cons first rest ih =>
    obtain ⟨key, old⟩ := first
    obtain ⟨hfirst, hrest⟩ := List.pairwise_cons.1 h
    simp only [place]
    split
    · rename_i hkey
      subst hkey
      exact List.pairwise_cons.2 ⟨hfirst, hrest⟩
    · split
      · rename_i _ hlt
        refine List.pairwise_cons.2 ⟨fun entry hmem => ?_, h⟩
        rcases List.mem_cons.1 hmem with rfl | hmem
        · exact hlt
        · exact String.lt_trans hlt (hfirst entry hmem)
      · rename_i hne hnlt
        refine List.pairwise_cons.2 ⟨fun entry hmem => ?_, ih hrest⟩
        rcases mem_place hmem with rfl | hmem
        · exact Std.lt_of_le_of_ne (String.not_lt.1 hnlt) hne
        · exact hfirst entry hmem

/-- What stands under a name. -/
def get? (r : Roster α) (name : String) : Option α := look name r.entries

/-- Whether a name has an entry. -/
def has (r : Roster α) (name : String) : Bool := (r.get? name).isSome

/-- Enters a value under a name, in place of what stood there. -/
def put (r : Roster α) (name : String) (value : α) : Roster α :=
  ⟨place name value r.entries, ascending_place name value r.ascending⟩

/-- Removes a name. -/
def drop (r : Roster α) (name : String) : Roster α :=
  ⟨r.entries.filter fun entry => entry.1 ≠ name, r.ascending.filter _⟩

/-- The names, ascending. -/
def names (r : Roster α) : List String := r.entries.map (·.1)

/-- The number of names. -/
def size (r : Roster α) : Nat := r.entries.length

/-- Applies a function to every value. -/
def map {β : Type} (f : α → β) (r : Roster α) : Roster β :=
  ⟨r.entries.map fun entry => (entry.1, f entry.2),
    List.pairwise_map.2 r.ascending⟩

-- ================================================================ lookup

theorem look_place_self (name : String) (value : α)
    (entries : List (String × α)) :
    look name (place name value entries) = some value := by
  induction entries with
  | nil => simp [place, look]
  | cons entry rest ih =>
    obtain ⟨key, old⟩ := entry
    simp only [place]
    split
    · simp [look]
    · split
      · simp [look]
      · rename_i hne _
        simp [look, hne, ih]

theorem look_place_of_ne {name other : String} (value : α)
    (entries : List (String × α)) (h : other ≠ name) :
    look other (place name value entries) = look other entries := by
  induction entries with
  | nil => simp [place, look, Ne.symm h]
  | cons entry rest ih =>
    obtain ⟨key, old⟩ := entry
    simp only [place]
    split
    · rename_i hkey
      subst hkey
      simp [look, Ne.symm h]
    · split
      · simp [look, Ne.symm h]
      · simp [look, ih]

/-- A name that was just put has its new value. -/
@[simp] theorem get?_put_self (r : Roster α) (name : String) (value : α) :
    (r.put name value).get? name = some value :=
  look_place_self name value r.entries

/-- Putting a name leaves all other names alone. -/
theorem get?_put_of_ne (r : Roster α) {name other : String} (value : α)
    (h : other ≠ name) :
    (r.put name value).get? other = r.get? other :=
  look_place_of_ne value r.entries h

end Roster

end TaskTree
