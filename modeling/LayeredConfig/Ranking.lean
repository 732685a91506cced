/-!
# Stable ranking

Sources, filters, services and inherited converters are ranked by a number, and those with the
same number keep the order they were given in. Insertion from the back does that: a new element
goes in front of every element whose number is not larger.

That this is a stable sort, and the only one, is proved in `Proofs/Ranking`; from there on rankings
are handled by order and by what they contain, and no longer by insertion.
-/

set_option autoImplicit false

namespace LayeredConfig.Ranking

variable {α : Type}

/-- Puts an element in front of the first one that does not rank above it. -/
def insert (key : α → Int) (a : α) : List α → List α
  | [] => [a]
  | b :: bs => if key a < key b then b :: insert key a bs else a :: b :: bs

/-- The elements by descending key; equal keys keep their order. -/
def descending (key : α → Int) (as : List α) : List α := as.foldr (insert key) []

/-- The elements by ascending key; equal keys keep their order. -/
def ascending (key : α → Int) (as : List α) : List α := descending (fun a => -key a) as

theorem mem_insert {key : α → Int} {a b : α} {as : List α} :
    b ∈ insert key a as ↔ b = a ∨ b ∈ as := by
  induction as with
  | nil => simp [insert]
  | cons c cs ih =>
    rw [insert]
    split
    · simp only [List.mem_cons, ih]
      constructor
      · rintro (h | h | h) <;> simp [h]
      · rintro (h | h | h) <;> simp [h]
    · simp

theorem mem_descending {key : α → Int} {a : α} {as : List α} :
    a ∈ descending key as ↔ a ∈ as := by
  induction as with
  | nil => simp [descending]
  | cons b bs ih =>
    have : descending key (b :: bs) = insert key b (descending key bs) := rfl
    rw [this, mem_insert, ih, List.mem_cons]

end LayeredConfig.Ranking
