import ClassChart.Journal

/-!
Reasoning about computations that report events and may fail.  An attempt ensures
a property if every result that it can return has it; failing and reporting do not
matter.
-/
namespace ClassChart

theorem bind_eq_ok_iff {ε α β : Type} {x : Except ε α} {f : α → Except ε β} {b : β} :
    x >>= f = .ok b ↔ ∃ a, x = .ok a ∧ f a = .ok b := by
  cases x with
  | error e =>
      constructor
      · intro h
        contradiction
      · rintro ⟨a, h, -⟩
        contradiction
  | ok a =>
      constructor
      · exact fun h => ⟨a, rfl, h⟩
      · rintro ⟨_, heq, h⟩
        cases heq
        exact h

theorem eq_ok_of_toOption {ε α : Type} {x : Except ε α} {a : α} (h : x.toOption = some a) :
    x = .ok a := by
  cases x with
  | error e => contradiction
  | ok b => exact congrArg Except.ok (Option.some.inj h)

theorem ok_bind {ε α β : Type} (a : α) (f : α → Except ε β) : Except.ok a >>= f = f a := rfl

theorem Logged.id_map {α : Type} (x : Logged α) : id <$> x = x := by
  change (⟨x.value, x.events ++ []⟩ : Logged α) = x
  rw [List.append_nil]

theorem Logged.bind_assoc {α β γ : Type} (x : Logged α) (f : α → Logged β)
    (g : β → Logged γ) : x >>= f >>= g = x >>= fun a => f a >>= g := by
  change (⟨_, (x.events ++ _) ++ _⟩ : Logged γ) = ⟨_, x.events ++ (_ ++ _)⟩
  rw [List.append_assoc]
  rfl

instance : LawfulMonad Logged :=
  .mk' Logged Logged.id_map (fun _ _ => rfl) Logged.bind_assoc

namespace Attempt

variable {α β : Type}

@[simp]
theorem result_pure (a : α) : (pure a : Attempt α).result = .ok a := rfl

@[simp]
theorem result_bind (x : Attempt α) (f : α → Attempt β) :
    (x >>= f).result = x.result.bind fun a => (f a).result := by
  change (ExceptT.bindCont f x.result).value = _
  cases x.result <;> rfl

@[simp]
theorem result_emit (event : Event) : (emit event).result = .ok () := rfl

@[simp]
theorem result_ofExcept (r : Except Fault α) : (ofExcept r).result = r := rfl

/-- Every result that an attempt returns satisfies `P`. -/
def Ensures (x : Attempt α) (P : α → Prop) : Prop :=
  ∀ a, x.result = .ok a → P a

theorem ensures_pure {P : α → Prop} {a : α} (ha : P a) : (pure a : Attempt α).Ensures P := by
  intro b hb
  rw [result_pure] at hb
  exact Except.ok.inj hb ▸ ha

theorem ensures_emit (event : Event) : (emit event).Ensures fun _ => True :=
  fun _ _ => trivial

/-- What the first part ensures may be assumed of the value that the second is given. -/
theorem Ensures.bind {x : Attempt α} {f : α → Attempt β} {P : α → Prop} {Q : β → Prop}
    (hx : x.Ensures P) (hf : ∀ a, P a → (f a).Ensures Q) : (x >>= f).Ensures Q := by
  intro b hb
  rw [result_bind] at hb
  cases hresult : x.result with
  | error e =>
      rw [hresult] at hb
      contradiction
  | ok a =>
      rw [hresult] at hb
      exact hf a (hx a hresult) b hb

theorem ensures_mapM {f : α → Attempt β} {as : List α} {P : β → Prop}
    (hf : ∀ a ∈ as, (f a).Ensures P) : (as.mapM f).Ensures fun bs => ∀ b ∈ bs, P b := by
  induction as with
  | nil =>
      rw [List.mapM_nil]
      exact ensures_pure fun b hb => absurd hb List.not_mem_nil
  | cons a rest ih =>
      rw [List.mapM_cons]
      have hrest := ih fun c hc => hf c (List.mem_cons_of_mem a hc)
      refine (hf a List.mem_cons_self).bind fun b hb => hrest.bind fun bs hbs => ?_
      exact ensures_pure (List.forall_mem_cons.mpr ⟨hb, hbs⟩)

theorem result_mapM {f : α → Attempt β} {g : α → β} {as : List α}
    (hf : ∀ a ∈ as, (f a).result = .ok (g a)) : (as.mapM f).result = .ok (as.map g) := by
  induction as with
  | nil => rfl
  | cons a rest ih =>
      rw [List.forall_mem_cons] at hf
      rw [List.mapM_cons, result_bind, hf.1]
      change ((rest.mapM f >>= fun bs => pure (g a :: bs) : Attempt (List β))).result = _
      rw [result_bind, ih hf.2]
      rfl

end Attempt

end ClassChart
