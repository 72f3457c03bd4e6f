set_option autoImplicit false

/-!
Streams that are pulled one item at a time.

A source answers each pull with an item or with nothing, and becomes another source either way.
It has a size that every item makes smaller, so whoever pulls until nothing comes is done after
finitely many items, however the items are worked out.
-/

namespace Reckoner

class Source (σ : Type) (α : outParam Type) where
  pull : σ → Option α × σ
  /-- At least as many as the items that may still come. -/
  size : σ → Nat
  size_pull : ∀ {s : σ} {a : α}, (pull s).1 = some a → size (pull s).2 < size s

namespace Source

variable {σ α : Type} [Source σ α]

theorem size_lt_of_pull {s rest : σ} {a : α} (item : pull s = (some a, rest)) :
    size rest < size s := by
  have smaller := size_pull (congrArg Prod.fst item)
  rwa [item] at smaller

/-- Every item with the source it left behind, and the source that had nothing more. -/
def drain (s : σ) : List (α × σ) × σ :=
  match _item : pull s with
  | (none, rest) => ([], rest)
  | (some a, rest) =>
    let (later, last) := drain rest
    ((a, rest) :: later, last)
termination_by size s
decreasing_by exact size_lt_of_pull _item

/-- Every item, in the order in which they come. -/
def items (s : σ) : List α :=
  (drain s).1.map Prod.fst

theorem items_of_pull_none {s rest : σ} (ended : pull s = (none, rest)) : items s = [] := by
  rw [items, drain]
  split <;> simp_all

theorem items_of_pull_some {s rest : σ} {a : α} (item : pull s = (some a, rest)) :
    items s = a :: items rest := by
  rw [items, drain]
  split <;> simp_all [items]

end Source

instance {α : Type} : Source (List α) α where
  pull
    | [] => (none, [])
    | a :: rest => (some a, rest)
  size := List.length
  size_pull {s a} h := by
    cases s with
    | nil => simp at h
    | cons b rest => simp

@[simp] theorem Source.items_list {α : Type} (as : List α) : Source.items as = as := by
  induction as with
  | nil => exact Source.items_of_pull_none rfl
  | cons a rest ih => exact (Source.items_of_pull_some rfl).trans (congrArg (a :: ·) ih)

structure Counted (σ : Type) where
  source : σ
  pulled : Nat

def Counted.new {σ : Type} (source : σ) : Counted σ := ⟨source, 0⟩

instance {σ α : Type} [Source σ α] : Source (Counted σ) α where
  pull s :=
    match Source.pull s.source with
    | (some a, rest) => (some a, ⟨rest, s.pulled + 1⟩)
    | (none, rest) => (none, ⟨rest, s.pulled⟩)
  size s := Source.size s.source
  size_pull {s a} h := by
    split at h
    · next b rest item => simpa [item] using Source.size_lt_of_pull item
    · simp at h

/-- Counting changes nothing about the items. -/
@[simp] theorem Source.items_counted {σ α : Type} [Source σ α] (s : Counted σ) :
    Source.items s = Source.items s.source := by
  induction bound : Source.size s.source using Nat.strongRecOn generalizing s with
  | _ n ih =>
    subst bound
    match item : Source.pull s.source with
    | (none, rest) =>
      have ended : Source.pull s = (none, ⟨rest, s.pulled⟩) := by
        simp [Source.pull, item]
      rw [Source.items_of_pull_none item, Source.items_of_pull_none ended]
    | (some a, rest) =>
      have shifted : Source.pull s = (some a, ⟨rest, s.pulled + 1⟩) := by
        simp [Source.pull, item]
      rw [Source.items_of_pull_some item, Source.items_of_pull_some shifted,
        ih _ (Source.size_lt_of_pull item) _ rfl]

end Reckoner
