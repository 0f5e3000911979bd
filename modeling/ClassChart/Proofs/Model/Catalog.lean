import ClassChart.Model.Catalog
import Mathlib.Data.List.Nodup

/-!
Looking up types.  A catalog made from a list finds under each name the first type
of the list that has it.
-/
namespace ClassChart.Catalog

theorem qualifiedName_of_find? {catalog : Catalog} {name : String} {type : NamedType}
    (hfind : catalog.find? name = some type) : type.qualifiedName = name := by
  rw [find?] at hfind
  split at hfind
  · contradiction
  · simpa using List.find?_some hfind

theorem mem_types_of_find? {catalog : Catalog} {name : String} {type : NamedType}
    (hfind : catalog.find? name = some type) : type ∈ catalog.types := by
  rw [find?] at hfind
  split at hfind
  · contradiction
  · exact List.mem_of_find?_eq_some hfind

/-- A type is added at the end, unless its name is taken. -/
theorem types_insert (catalog : Catalog) (type : NamedType) :
    (catalog.insert type).value.types =
      if catalog.contains type.qualifiedName then catalog.types else catalog.types ++ [type] := by
  rw [insert]
  split <;> rfl

/-- An insertion decides only what is found under a name that was still free. -/
theorem find?_types_insert (catalog : Catalog) (type : NamedType) (name : String) :
    (catalog.insert type).value.types.find? (·.qualifiedName = name) =
      (catalog.types.find? (·.qualifiedName = name)).or
        ([type].find? (·.qualifiedName = name)) := by
  rw [types_insert]
  split
  · rename_i htaken
    -- The name is taken, so the new type is found neither before nor after.
    by_cases hname : type.qualifiedName = name
    · subst hname
      obtain ⟨old, hold, heq⟩ := List.any_eq_true.mp htaken
      have hsome : (catalog.types.find? (·.qualifiedName = type.qualifiedName)).isSome :=
        List.find?_isSome.mpr ⟨old, hold, heq⟩
      obtain ⟨found, hfound⟩ := Option.isSome_iff_exists.mp hsome
      rw [hfound, Option.some_or]
    · simp [hname]
  · rw [List.find?_append]

/-- Of types under one name the first counts, and before it one that was there.  The induction is on
the types. -/
theorem find?_types_foldl_insert (types : List NamedType) (catalog : Catalog) (name : String) :
    (types.foldl (fun c t => (c.insert t).value) catalog).types.find?
        (·.qualifiedName = name) =
      (catalog.types.find? (·.qualifiedName = name)).or
        (types.find? (·.qualifiedName = name)) := by
  induction types generalizing catalog with
  | nil => simp
  | cons type rest ih =>
      rw [List.foldl_cons, ih, find?_types_insert, Option.or_assoc, ← List.find?_append,
        List.singleton_append]

/-- Of several types with one name the first is kept. -/
theorem find?_types_ofList (types : List NamedType) (name : String) :
    (ofList types).value.types.find? (·.qualifiedName = name) =
      types.find? (·.qualifiedName = name) := by
  rw [ofList, Logged.value_foldlM, find?_types_foldl_insert]
  rfl

theorem find?_ofList (types : List NamedType) (name : String) :
    (ofList types).value.find? name =
      if name.isEmpty then none else types.find? (·.qualifiedName = name) := by
  rw [find?, find?_types_ofList]

theorem types_foldl_insert_subset (types : List NamedType) (catalog : Catalog) :
    (types.foldl (fun c t => (c.insert t).value) catalog).types ⊆ catalog.types ++ types := by
  induction types generalizing catalog with
  | nil => simp
  | cons type rest ih =>
      have hstep : (catalog.insert type).value.types ⊆ catalog.types ++ [type] := by
        rw [types_insert]
        split
        · exact List.subset_append_left _ _
        · exact List.Subset.refl _
      intro found hfound
      rcases List.mem_append.mp (ih _ hfound) with hfound | hfound
      · have hmem := hstep hfound
        simp only [List.mem_append, List.mem_singleton] at hmem
        simp only [List.mem_append, List.mem_cons]
        exact or_assoc.mp (Or.inl hmem)
      · exact List.mem_append_right _ (List.mem_cons_of_mem type hfound)

theorem types_ofList_subset (types : List NamedType) : (ofList types).value.types ⊆ types := by
  rw [ofList, Logged.value_foldlM]
  exact types_foldl_insert_subset types empty

theorem types_foldl_insert {types : List NamedType} {catalog : Catalog}
    (hnames : ((catalog.types ++ types).map NamedType.qualifiedName).Nodup) :
    (types.foldl (fun c t => (c.insert t).value) catalog).types = catalog.types ++ types := by
  induction types generalizing catalog with
  | nil => simp
  | cons type rest ih =>
      have hfree : catalog.contains type.qualifiedName = false := by
        rw [contains, List.any_eq_false]
        intro old hold heq
        rw [List.map_append, List.nodup_append] at hnames
        exact hnames.2.2 _ (List.mem_map_of_mem hold) _ List.mem_cons_self (by simpa using heq)
      have hstep : (catalog.insert type).value.types = catalog.types ++ [type] := by
        rw [types_insert, hfree, if_neg Bool.false_ne_true]
      rw [List.foldl_cons, ih]
      · rw [hstep, List.append_assoc, List.singleton_append]
      · rw [hstep, List.append_assoc, List.singleton_append]
        exact hnames

/-- Types with different names are all kept, in their order. -/
theorem types_ofList {types : List NamedType}
    (hnames : (types.map NamedType.qualifiedName).Nodup) :
    (ofList types).value.types = types := by
  rw [ofList, Logged.value_foldlM]
  exact @types_foldl_insert types empty hnames

/-- A type of a catalog is known by its name. -/
theorem eq_of_qualifiedName_eq {catalog : Catalog} {a b : NamedType} (ha : a ∈ catalog.types)
    (hb : b ∈ catalog.types) (hname : a.qualifiedName = b.qualifiedName) : a = b :=
  List.inj_on_of_nodup_map catalog.distinct ha hb hname

/-- A type is found under its name, which no other type has. -/
theorem find?_of_mem {catalog : Catalog} {type : NamedType} (htype : type ∈ catalog.types)
    (hname : type.qualifiedName ≠ "") : catalog.find? type.qualifiedName = some type := by
  have hsome : (catalog.types.find? (·.qualifiedName = type.qualifiedName)).isSome :=
    List.find?_isSome.mpr ⟨type, htype, decide_eq_true rfl⟩
  obtain ⟨found, hfound⟩ := Option.isSome_iff_exists.mp hsome
  have heq : found.qualifiedName = type.qualifiedName := by simpa using List.find?_some hfound
  have hmem := List.mem_of_find?_eq_some hfound
  rw [find?, if_neg (by simpa using hname), hfound]
  exact congrArg some (eq_of_qualifiedName_eq hmem htype heq)

end ClassChart.Catalog
