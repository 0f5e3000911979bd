import ClassChart.Proofs.Diagram.Lookup
import ClassChart.Proofs.Diagram.Overloads

/-!
Private members that are not drawn.  Overloads are put in order before the private ones among them
are dropped, so these could decide where a group stands.  If none of them is the first of a group
that is drawn, dropping and ordering can be exchanged, and a diagram is the same without them.
-/
namespace ClassChart

namespace MemberBlock

variable {keep : Method → Bool} {methods : List Method} {a b : Method}

/-- The first overload of a method, if there is one, is kept. -/
def FirstKept (keep : Method → Bool) (methods : List Method) (m : Method) : Prop :=
  ∀ first ∈ methods.find? (sameGroup m), keep first = true

/-- The position of a group whose first method is kept counts what is kept before it. -/
theorem groupIndex_filter (ha : FirstKept keep methods a) :
    groupIndex (methods.filter keep) a = (methods.take (groupIndex methods a)).countP keep := by
  induction methods with
  | nil => rfl
  | cons m rest ih =>
      by_cases hm : sameGroup a m = true
      · have hkeep : keep m = true := ha m (List.find?_cons_of_pos hm)
        simp [groupIndex, List.findIdx_cons, hm, hkeep]
      · have hrest : FirstKept keep rest a := by
          intro first hfirst
          apply ha first
          rw [List.find?_cons_of_neg hm]
          exact hfirst
        have hnext := ih hrest
        rw [Bool.not_eq_true] at hm
        rw [groupIndex] at hnext
        cases hkeep : keep m with
        | false => simp [groupIndex, List.findIdx_cons, hm, hkeep, hnext]
        | true => simp [groupIndex, List.findIdx_cons, hm, hkeep, hnext]

/-- A group whose first method is kept comes to stand before the groups after it. -/
theorem countP_take_lt (ha : FirstKept keep methods a) (hmem : a ∈ methods) {n : Nat}
    (hn : groupIndex methods a < n) :
    (methods.take (groupIndex methods a)).countP keep < (methods.take n).countP keep := by
  have hi := groupIndex_lt_length hmem
  have hfirst : keep methods[groupIndex methods a] = true :=
    ha _ (List.find?_eq_some_iff_getElem.mpr
      ⟨List.findIdx_getElem, _, hi, rfl, fun j hj => by simpa using List.not_of_lt_findIdx hj⟩)
  have hprefix : (methods.take (groupIndex methods a + 1)).Sublist (methods.take n) :=
    (List.take_prefix_take_left hn).sublist
  have hcount := hprefix.countP_le (p := keep)
  rw [List.take_succ_eq_append_getElem hi, List.countP_append, List.countP_singleton, hfirst,
    if_pos rfl] at hcount
  omega

/-- Groups whose first methods are kept stand to one another as before. -/
theorem groupIndex_filter_le_iff (ha : FirstKept keep methods a) (hb : FirstKept keep methods b)
    (hmem : b ∈ methods) :
    groupIndex (methods.filter keep) a ≤ groupIndex (methods.filter keep) b ↔
      groupIndex methods a ≤ groupIndex methods b := by
  rw [groupIndex_filter ha, groupIndex_filter hb]
  constructor
  · intro hle
    by_contra hlt
    have hless := countP_take_lt hb hmem (Nat.lt_of_not_le hlt)
    omega
  · intro hle
    exact (List.take_prefix_take_left hle).sublist.countP_le

/-- Ordering methods and dropping some of them can be exchanged, if no group that keeps a method
loses its first. -/
theorem orderMethods_filter (hfirst : ∀ m ∈ methods, keep m = true → FirstKept keep methods m) :
    (orderMethods methods).filter keep = orderMethods (methods.filter keep) := by
  have hsame : ∀ a ∈ methods.filter keep, ∀ b ∈ methods.filter keep,
      inOrder methods a b = inOrder (methods.filter keep) (id a) (id b) := by
    intro a ha b hb
    obtain ⟨hamem, hakeep⟩ := List.mem_filter.mp ha
    obtain ⟨hbmem, hbkeep⟩ := List.mem_filter.mp hb
    rw [Bool.eq_iff_iff, inOrder_iff, inOrder_iff, place_le_iff hbmem, id, id, place_le_iff hb,
      groupIndex_filter_le_iff (hfirst a hamem hakeep) (hfirst b hbmem hbkeep) hbmem]
  rw [orderMethods, filter_mergeSort (inOrder_trans methods) (inOrder_total methods), orderMethods]
  simpa using List.map_mergeSort hsame

end MemberBlock

namespace NamedType

/-- The fields of a type that are not private. -/
def openFields (t : NamedType) : List Field :=
  t.fields.filter (·.visibility != .owner)

/-- The methods of a type that are not private. -/
def openMethods (t : NamedType) : List Method :=
  t.methods.filter (·.visibility != .owner)

/-- A type without its private members. -/
def withoutPrivate (t : NamedType) : NamedType :=
  t.withMembers openFields openMethods

/-- Of overloads that are not all private, the first one declared is not private. -/
def OpenFirst (t : NamedType) : Prop :=
  ∀ m ∈ t.methods, m.visibility ≠ .owner →
    ∀ first ∈ t.methods.find? (MemberBlock.sameGroup m), first.visibility ≠ .owner

instance (t : NamedType) : Decidable t.OpenFirst :=
  inferInstanceAs (Decidable (∀ m ∈ t.methods, m.visibility ≠ .owner →
    ∀ first ∈ t.methods.find? (MemberBlock.sameGroup m), first.visibility ≠ .owner))

/-- No private method is abstract. -/
def PrivateImplemented (t : NamedType) : Prop :=
  ∀ m ∈ t.methods, m.visibility = .owner → m.isAbstract = false

instance (t : NamedType) : Decidable t.PrivateImplemented :=
  inferInstanceAs (Decidable (∀ m ∈ t.methods, m.visibility = .owner → m.isAbstract = false))

theorem PrivateImplemented.filter_openMethods {t : NamedType} (ht : t.PrivateImplemented) :
    t.openMethods.filter Method.isAbstract = t.methods.filter Method.isAbstract := by
  rw [openMethods, List.filter_filter]
  apply List.filter_congr
  intro m hm
  by_cases hprivate : m.visibility = .owner
  · rw [ht m hm hprivate, Bool.false_and]
  · simp [hprivate]

/-- The block of a type's members is the same without the private ones. -/
theorem OpenFirst.write_open {t : NamedType} (ht : t.OpenFirst) {s : Settings}
    (hhidden : s.showPrivate = false) :
    MemberBlock.write t.openFields t.openMethods s = MemberBlock.write t.fields t.methods s := by
  have hshows (v : Visibility) : s.shows v = (v != .owner) := by
    rw [Settings.shows, hhidden, Bool.false_or]
  have horder : (MemberBlock.orderMethods t.methods).filter (·.visibility != .owner) =
      MemberBlock.orderMethods t.openMethods := by
    apply MemberBlock.orderMethods_filter
    intro m hm hopen first hfirst
    have hopen' := ht m hm (by simpa using hopen) first hfirst
    simpa using hopen'
  have hagain : (MemberBlock.orderMethods t.openMethods).filter (·.visibility != .owner) =
      MemberBlock.orderMethods t.openMethods := by
    rw [← horder, List.filter_filter]
    simp only [Bool.and_self]
  funext w
  simp only [MemberBlock.write, hshows, horder, hagain, openFields, List.filter_filter,
    Bool.and_self]

end NamedType

theorem Catalog.distinct_withoutPrivate (catalog : Catalog) :
    ((catalog.types.map NamedType.withoutPrivate).map NamedType.qualifiedName).Nodup := by
  rw [List.map_map]
  exact catalog.distinct

/-- The catalog of the same types without their private members. -/
def Catalog.withoutPrivate (catalog : Catalog) : Catalog :=
  ⟨catalog.types.map NamedType.withoutPrivate, catalog.distinct_withoutPrivate⟩

/-- Hiding the private members of all types finds the same types, with these members hidden. -/
theorem Catalog.find?_withoutPrivate (catalog : Catalog) (name : String) :
    catalog.withoutPrivate.find? name = (catalog.find? name).map NamedType.withoutPrivate := by
  rw [find?, find?, withoutPrivate, List.find?_map]
  split <;> rfl

/-- A diagram that hides private members does not depend on them: without them it has the same
text, or fails in the same way, with the same events.  Only where private methods decide how the
others are shown, as abstract methods of a found type or as the first of their overloads in the
subject, this could be otherwise. -/
theorem Diagram.draw_withoutPrivate (d : Diagram) (subject : NamedType)
    (hhidden : d.settings.showPrivate = false) (hsubject : subject.OpenFirst)
    (htypes : ∀ type ∈ d.catalog.types, type.PrivateImplemented) :
    draw { d with catalog := d.catalog.withoutPrivate } subject.withoutPrivate =
      d.draw subject := by
  apply draw_withMembers d.catalog.find?_withoutPrivate
  · exact hsubject.write_open hhidden
  · intro type htype
    exact (htypes type htype).filter_openMethods

/-- A private overload between two others, a private field, and a private method beside an abstract
one of the superclass. -/
theorem Diagram.draw_withoutPrivate_dog :
    let animal : NamedType :=
      { qualifiedName := "p.Animal", name := "Animal", package := "p", modifiers := ["abstract"],
        methods := [{ name := "age", visibility := .owner },
          { name := "speak", modifiers := ["abstract"] }] }
    let dog : NamedType :=
      { qualifiedName := "p.Dog", name := "Dog", package := "p", superclass := some "p.Animal",
        methods := [{ name := "speak", parameters := ⟨[⟨none, some (.of "int")⟩], false⟩ },
          { name := "bark", visibility := .owner },
          { name := "speak", visibility := .owner },
          { name := "speak", parameters := ⟨[⟨none, some (.of "char")⟩], false⟩ }],
        fields := [{ name := "tail", type := .of "int", visibility := .owner }] }
    let d : Diagram := { catalog := (Catalog.ofList [animal, dog]).value }
    (d.settings.showPrivate = false ∧ dog.OpenFirst ∧
        ∀ type ∈ d.catalog.types, type.PrivateImplemented) ∧
      animal.withoutPrivate ≠ animal ∧ dog.withoutPrivate ≠ dog ∧
      draw { d with catalog := d.catalog.withoutPrivate } dog.withoutPrivate = d.draw dog := by
  intro animal dog d
  have hdog : dog.OpenFirst := by decide
  have htypes : ∀ type ∈ d.catalog.types, type.PrivateImplemented := by decide
  exact ⟨⟨rfl, hdog, htypes⟩, by decide, by decide,
    draw_withoutPrivate d dog rfl hdog htypes⟩

end ClassChart
