set_option autoImplicit false

namespace List

variable {α β γ : Type} {f : α → Option β}

theorem bind_mapM (g : β → Option γ) (as : List α) :
    ((as.mapM f).bind fun bs => bs.mapM g) = as.mapM fun a => (f a).bind g := by
  induction as with
  | nil => rfl
  | cons a as ih =>
    rw [mapM_cons, mapM_cons, ← ih]
    cases f a with
    | none => rfl
    | some b =>
      cases as.mapM f with
      | none => exact (Option.bind_fun_none (g b)).symm
      | some bs => exact mapM_cons

theorem mapM_eq_some_self_iff {f : α → Option α} {as : List α} :
    as.mapM f = some as ↔ ∀ a ∈ as, f a = some a := by
  induction as with
  | nil => simp
  | cons a as ih =>
    rw [mapM_cons, forall_mem_cons, ← ih]
    cases f a with
    | none => simp
    | some b => cases as.mapM f <;> simp

theorem mapM_eq_none_of_mem {as : List α} {a : α} (member : a ∈ as) (failed : f a = none) :
    as.mapM f = none := by
  obtain ⟨front, back, rfl⟩ := append_of_mem member
  rw [mapM_append, mapM_cons, failed]
  cases front.mapM f <;> rfl

end List
