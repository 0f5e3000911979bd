/-!
Trees of named files.  The view of a tree is `get?`, which says what stands at a
place: the list of the names on the way to it.
-/
namespace ClassChart

/-- A file, or a directory of named entries. -/
inductive Tree (α : Type) where
  | file (content : α)
  | directory (entries : List (String × Tree α))
deriving Repr, Inhabited

namespace Tree

variable {α : Type}

def isDirectory : Tree α → Bool
  | .file _ => false
  | .directory _ => true

/-- The entries of a directory; a file has none. -/
def entries : Tree α → List (String × Tree α)
  | .file _ => []
  | .directory entries => entries

/-- What stands at a place. -/
def get? (t : Tree α) : List String → Option (Tree α)
  | [] => some t
  | name :: place =>
      match t.entries.lookup name with
      | none => none
      | some entry => entry.get? place

/-- Set the entry of a name: in place if there is one, else at the end. -/
def setEntry (name : String) (entry : Tree α) :
    List (String × Tree α) → List (String × Tree α)
  | [] => [(name, entry)]
  | other :: rest =>
      if other.1 = name then (name, entry) :: rest else other :: setEntry name entry rest

/-- Put a tree at a place.  Nothing changes if the directory of the place is
missing. -/
def put (t : Tree α) (new : Tree α) : List String → Tree α
  | [] => new
  | name :: place =>
      match t with
      | .file content => .file content
      | .directory entries =>
          match place, entries.lookup name with
          | [], _ => .directory (setEntry name new entries)
          | _ :: _, none => .directory entries
          | _ :: _, some entry => .directory (setEntry name (entry.put new place) entries)

@[simp]
theorem lookup_setEntry_self (name : String) (entry : Tree α) (entries : List (String × Tree α)) :
    (setEntry name entry entries).lookup name = some entry := by
  induction entries with
  | nil => simp [setEntry]
  | cons other rest ih =>
      obtain ⟨key, value⟩ := other
      by_cases h : key = name
      · simp [setEntry, h]
      · have h' : (name == key) = false := by simpa using fun e => h e.symm
        simp [setEntry, h, List.lookup_cons, h', ih]

theorem lookup_setEntry_of_ne {name other : String} (h : other ≠ name) (entry : Tree α)
    (entries : List (String × Tree α)) :
    (setEntry name entry entries).lookup other = entries.lookup other := by
  have hne : (other == name) = false := by simpa using h
  induction entries with
  | nil => simp [setEntry, List.lookup_cons, hne]
  | cons first rest ih =>
      obtain ⟨key, value⟩ := first
      by_cases hk : key = name
      · subst hk
        simp [setEntry, List.lookup_cons, hne]
      · simp only [setEntry, hk, if_false, List.lookup_cons, ih]

/-- What stands at a place after a tree was put there, if its directory exists. -/
theorem get?_put_self (t new : Tree α) (place : List String) (name : String)
    (entries : List (String × Tree α)) (h : t.get? place = some (.directory entries)) :
    (t.put new (place ++ [name])).get? (place ++ [name]) = some new := by
  induction place generalizing t with
  | nil =>
      simp only [get?, Option.some.injEq] at h
      subst h
      simp [put, get?, Tree.entries]
  | cons step place ih =>
      cases t with
      | file content => simp [get?, Tree.entries] at h
      | directory own =>
          simp only [get?, Tree.entries] at h
          cases hl : own.lookup step with
          | none => simp [hl] at h
          | some inner =>
              simp only [hl] at h
              have := ih inner h
              cases place <;> simp_all [put, get?, Tree.entries]
mutual

/-- The same tree with other contents. -/
def map {β : Type} (f : α → β) : Tree α → Tree β
  | .file content => .file (f content)
  | .directory entries => .directory (mapEntries f entries)

def mapEntries {β : Type} (f : α → β) : List (String × Tree α) → List (String × Tree β)
  | [] => []
  | (name, entry) :: rest => (name, entry.map f) :: mapEntries f rest

end

end Tree

end ClassChart
