import LayeredConfig.Ranking
import Mathlib.Data.List.Sort

/-!
# Ranking is a stable sort

Ranking by a key is insertion sort by that key. Nothing is lost and nothing added, the keys stand in
order, and the elements of one key stand as they were given. These facts leave no choice: the
ranking depends on the order of the given elements only within each key (`descending_eq_iff`), and
the first element in it with some property is the one given first among those with the largest key
(`find?_descending_eq_some_iff`).

All of it is about lists and nothing else, and is used wherever something is ranked: sources by
their ordinals, registrations by their priorities, inherited converters by their ranks. Ranking by
ascending keys is ranking by descending negated ones.
-/

set_option autoImplicit false

namespace LayeredConfig.Ranking

variable {α β : Type} (key : α → Int)

theorem insert_eq_orderedInsert (a : α) (as : List α) :
    insert key a as = as.orderedInsert (fun a b => key b ≤ key a) a := by
  induction as with
  | nil => rfl
  | cons b bs ih =>
    rw [insert, List.orderedInsert_cons, ih]
    by_cases lt : key a < key b
    · rw [if_pos lt, if_neg (Int.not_le.mpr lt)]
    · rw [if_neg lt, if_pos (Int.not_lt.mp lt)]

theorem descending_eq_insertionSort (as : List α) :
    descending key as = as.insertionSort fun a b => key b ≤ key a := by
  induction as with
  | nil => rfl
  | cons a as ih =>
    rw [List.insertionSort_cons, ← ih, ← insert_eq_orderedInsert]
    rfl

section Descending

instance total_key : Std.Total fun a b : α => key b ≤ key a := ⟨fun _ _ => Int.le_total _ _⟩

instance trans_key : IsTrans α fun a b => key b ≤ key a := ⟨fun _ _ _ ab bc => Int.le_trans bc ab⟩

theorem descending_perm (as : List α) : (descending key as).Perm as := by
  rw [descending_eq_insertionSort]
  exact List.perm_insertionSort _ as

theorem descending_sorted (as : List α) : (descending key as).Pairwise fun a b => key b ≤ key a := by
  rw [descending_eq_insertionSort]
  exact List.pairwise_insertionSort _ as

/-- The elements of one key keep their order. -/
theorem filter_descending (as : List α) (k : Int) :
    (descending key as).filter (key · = k) = as.filter (key · = k) := by
  have equal : (as.filter (key · = k)).Pairwise fun a b => key b ≤ key a := by
    refine List.pairwise_of_forall_mem_list fun a ha b hb => ?_
    have keys : key a = k ∧ key b = k := by
      simpa using And.intro (List.mem_filter.mp ha).2 (List.mem_filter.mp hb).2
    exact (keys.2.trans keys.1.symm).le
  have within : (as.filter (key · = k)).Sublist (descending key as) := by
    rw [descending_eq_insertionSort]
    exact List.sublist_insertionSort equal List.filter_sublist
  -- The elements of one key are a sublist of the ranking, and there are no more of them in it.
  have kept := within.filter (key · = k)
  rw [List.filter_filter] at kept
  simp only [Bool.and_self] at kept
  exact (kept.eq_of_length ((descending_perm key as).filter _).length_eq.symm).symm

/-- A list is another one ranked by a key: with the same elements, by descending key, and with the
    elements of each key as they were given. -/
structure Ranked (given ranked : List α) : Prop where
  perm : ranked.Perm given
  sorted : ranked.Pairwise fun a b => key b ≤ key a
  stable : ∀ k, ranked.filter (key · = k) = given.filter (key · = k)

theorem descending_ranked (as : List α) : Ranked key as (descending key as) :=
  ⟨descending_perm key as, descending_sorted key as, filter_descending key as⟩

section Ranked

variable {key} {key' : α → Int} {given ranked : List α}

theorem filterMap_filter_key {f : α → Option β} {keyOf : β → Int}
    (same : ∀ a b, f a = some b → keyOf b = key a) (k : Int) (as : List α) :
    (as.filter (key · = k)).filterMap f = (as.filterMap f).filter (keyOf · = k) := by
  induction as with
  | nil => rfl
  | cons a as ih =>
    cases found : f a with
    | none =>
      rw [List.filterMap_cons_none found, ← ih, List.filter_cons]
      split
      · exact List.filterMap_cons_none found
      · rfl
    | some b =>
      rw [List.filterMap_cons_some found, List.filter_cons, List.filter_cons, same a b found]
      split
      · rw [List.filterMap_cons_some found, ih]
      · exact ih

/-- What is made of ranked elements is ranked if it keeps their keys. -/
theorem Ranked.filterMap (h : Ranked key given ranked) {f : α → Option β} {keyOf : β → Int}
    (same : ∀ a b, f a = some b → keyOf b = key a) :
    Ranked keyOf (given.filterMap f) (ranked.filterMap f) where
  perm := h.perm.filterMap f
  sorted := by
    refine h.sorted.filterMap f fun a a' le b found b' found' => ?_
    rw [same a b found, same a' b' found']
    exact le
  stable k := by
    rw [← filterMap_filter_key same, ← filterMap_filter_key same, h.stable k]

theorem Ranked.first_mem {a : α} {as : List α} (h : Ranked key given (a :: as)) : a ∈ given :=
  h.perm.subset List.mem_cons_self

theorem Ranked.le_first {a b : α} {as : List α} (h : Ranked key given (a :: as))
    (mem : b ∈ given) : key b ≤ key a := by
  rcases List.mem_cons.mp (h.perm.symm.subset mem) with rfl | later
  · exact Int.le_refl _
  · exact (List.pairwise_cons.mp h.sorted).1 b later

/-- A list ranked by two keys: by the second one only where the first is equal, and as it was given
    where both are. -/
structure RankedTwice (key key' : α → Int) (given ranked : List α) : Prop where
  perm : ranked.Perm given
  sorted : ranked.Pairwise fun a b => key b < key a ∨ key b = key a ∧ key' b ≤ key' a
  stable : ∀ k k', ranked.filter (fun a => key a = k ∧ key' a = k') =
    given.filter fun a => key a = k ∧ key' a = k'

/-- Insertion from the back keeps an order of the elements that share a key. -/
theorem insert_pairwise {R : α → α → Prop} {a : α} {as : List α} (first : ∀ b ∈ as, R a b)
    (sorted : as.Pairwise fun a b => key b < key a ∨ key b = key a ∧ R a b) :
    (insert key a as).Pairwise fun a b => key b < key a ∨ key b = key a ∧ R a b := by
  induction as with
  | nil => exact List.pairwise_singleton _ a
  | cons b bs ih =>
    obtain ⟨below, rest⟩ := List.pairwise_cons.mp sorted
    rw [insert]
    split
    next lt =>
      refine List.pairwise_cons.mpr ⟨fun c mem => ?_, ih (fun c mem => first c (.tail b mem)) rest⟩
      rcases mem_insert.mp mem with rfl | mem
      · exact .inl lt
      · exact below c mem
    -- It is put in front: of those with its key it is the first, and no other key is larger.
    next ge =>
      refine List.pairwise_cons.mpr ⟨fun c mem => ?_, sorted⟩
      have le : key c ≤ key a := by
        rcases List.mem_cons.mp mem with rfl | later
        · exact Int.not_lt.mp ge
        · have := below c later
          omega
      rcases Int.lt_or_eq_of_le le with lt | eq
      · exact .inl lt
      · exact .inr ⟨eq, first c mem⟩

theorem descending_pairwise {R : α → α → Prop} {as : List α} (sorted : as.Pairwise R) :
    (descending key as).Pairwise fun a b => key b < key a ∨ key b = key a ∧ R a b := by
  induction as with
  | nil => exact .nil
  | cons a as ih =>
    obtain ⟨first, rest⟩ := List.pairwise_cons.mp sorted
    exact insert_pairwise (fun b mem => first b (mem_descending.mp mem)) (ih rest)

/-- What is ranked by a second key first, and then by the first, is ranked by both. -/
theorem Ranked.again (h : Ranked key' given ranked) (key : α → Int) :
    RankedTwice key key' given (descending key ranked) where
  perm := (descending_perm key ranked).trans h.perm
  sorted := descending_pairwise h.sorted
  stable k k' := by
    have split (as : List α) : as.filter (fun a => key a = k ∧ key' a = k') =
        (as.filter (key' · = k')).filter (key · = k) := by
      rw [List.filter_filter]
      exact List.filter_congr fun a _ => Bool.decide_and _ _
    have swap (as : List α) : (as.filter (key' · = k')).filter (key · = k) =
        (as.filter (key · = k)).filter (key' · = k') := by
      rw [List.filter_filter, List.filter_filter]
      exact List.filter_congr fun a _ => Bool.and_comm _ _
    rw [split, split, swap, filter_descending, ← swap, h.stable]

end Ranked

theorem descending_map (f : β → α) (as : List β) :
    descending key (as.map f) = (descending (fun b => key (f b)) as).map f := by
  rw [descending_eq_insertionSort, descending_eq_insertionSort]
  exact (List.map_insertionSort _ _ f as fun _ _ _ _ => Iff.rfl).symm

/-! ### What a ranking depends on -/

/-- Two lists with the same elements of each key in the same order: one is a reordering of the other
    that moves no two elements of one key past each other. -/
def SameWithin (as bs : List α) : Prop := ∀ k, as.filter (key · = k) = bs.filter (key · = k)

variable {key}

theorem SameWithin.of_cons {a : α} {as bs : List α} (h : SameWithin key (a :: as) (a :: bs)) :
    SameWithin key as bs := by
  intro k
  have step := h k
  rw [List.filter_cons, List.filter_cons] at step
  split at step
  · exact List.cons_inj_right a |>.mp step
  · exact step

theorem SameWithin.exists_mem {a : α} {as bs : List α} (h : SameWithin key (a :: as) bs) :
    a ∈ bs := by
  have mem : a ∈ (a :: as).filter (key · = key a) := by simp
  rw [h (key a)] at mem
  exact List.mem_of_mem_filter mem

/-- Of lists in descending order, each is told by its elements of each key. -/
theorem SameWithin.eq_of_sorted {as bs : List α} (h : SameWithin key as bs)
    (sorted : as.Pairwise fun a b => key b ≤ key a)
    (sorted' : bs.Pairwise fun a b => key b ≤ key a) : as = bs := by
  induction as generalizing bs with
  | nil =>
    cases bs with
    | nil => rfl
    | cons b bs =>
      have symm : SameWithin key (b :: bs) [] := fun k => (h k).symm
      exact nomatch symm.exists_mem
  | cons a as ih =>
    cases bs with
    | nil => exact nomatch h.exists_mem
    | cons b bs =>
      have symm : SameWithin key (b :: bs) (a :: as) := fun k => (h k).symm
      have top {c d : α} {cs : List α} (sorted : (c :: cs).Pairwise fun a b => key b ≤ key a)
          (mem : d ∈ c :: cs) : key d ≤ key c := by
        rcases List.mem_cons.mp mem with rfl | mem
        · exact Int.le_refl _
        · exact List.rel_of_pairwise_cons sorted mem
      -- The first element has the largest key in both lists, and among those of that key it is the
      -- first.
      have keys : key a = key b :=
        Int.le_antisymm (top sorted' h.exists_mem) (top sorted symm.exists_mem)
      have heads := h (key a)
      rw [List.filter_cons_of_pos (by simp), List.filter_cons_of_pos (by simp [keys])] at heads
      obtain rfl := (List.cons.inj heads).1
      rw [ih h.of_cons sorted.tail sorted'.tail]

theorem SameWithin.append {as bs as' bs' : List α} (h : SameWithin key as bs)
    (h' : SameWithin key as' bs') : SameWithin key (as ++ as') (bs ++ bs') := by
  intro k
  rw [List.filter_append, List.filter_append, h k, h' k]

theorem SameWithin.filter {as bs : List α} (h : SameWithin key as bs) (p : α → Bool) :
    SameWithin key (as.filter p) (bs.filter p) := by
  intro k
  have swap (cs : List α) :
      (cs.filter p).filter (key · = k) = (cs.filter (key · = k)).filter p := by
    rw [List.filter_filter, List.filter_filter]
    exact List.filter_congr fun a _ => Bool.and_comm _ _
  rw [swap, swap, h k]

/-- A ranking moves no two elements of one key past each other. -/
theorem descending_sameWithin (as : List α) : SameWithin key (descending key as) as :=
  filter_descending key as

theorem descending_eq_iff {as bs : List α} :
    descending key as = descending key bs ↔ SameWithin key as bs := by
  constructor
  · intro same k
    rw [← filter_descending, same, filter_descending]
  · intro within
    have ranked : SameWithin key (descending key as) (descending key bs) := by
      intro k
      rw [filter_descending, filter_descending, within k]
    exact ranked.eq_of_sorted (descending_sorted key as) (descending_sorted key bs)

/-! ### What comes first -/

variable (key)

/-- The element with the largest key among those that fit, and the first of them if there are
    several. -/
def Foremost (fits : α → Prop) (a : α) (as : List α) : Prop :=
  ∃ before after, as = before ++ a :: after ∧ fits a ∧
    (∀ b ∈ before, fits b → key b < key a) ∧ ∀ b ∈ after, fits b → key b ≤ key a

variable {key} {fits : α → Prop} {a b : α} {as : List α}

theorem Foremost.unique (ha : Foremost key fits a as) (hb : Foremost key fits b as) : a = b := by
  obtain ⟨before, after, rfl, fit, less, le⟩ := ha
  obtain ⟨before', after', same, fit', less', le'⟩ := hb
  -- Where the one stood before the other, it would have a key both larger and not larger.
  rcases List.append_eq_append_iff.mp same with ⟨between, rfl, rest⟩ | ⟨between, rfl, rest⟩
  · cases between with
    | nil => exact (List.cons.inj rest).1
    | cons c between =>
      obtain ⟨rfl, rfl⟩ := List.cons.inj rest
      have lt := less' a (by simp) fit
      have ge := le b (by simp) fit'
      exact absurd lt (Int.not_lt.mpr ge)
  · cases between with
    | nil => exact (List.cons.inj rest).1.symm
    | cons c between =>
      obtain ⟨rfl, rfl⟩ := List.cons.inj rest
      have lt := less b (by simp) fit'
      have ge := le' a (by simp) fit
      exact absurd lt (Int.not_lt.mpr ge)

/-- The first that fits in the ranking is the foremost in the list as it was given. -/
theorem foremost_of_find?_descending {p : α → Bool} (found : (descending key as).find? p = some a) :
    Foremost key (p · = true) a as := by
  obtain ⟨fit, above, below, ranked, none⟩ := List.find?_eq_some_iff_append.mp found
  have sorted := descending_sorted key as
  rw [ranked, List.pairwise_append, List.pairwise_cons] at sorted
  have le : ∀ b ∈ as, p b = true → key b ≤ key a := by
    intro b mem fit'
    have there : b ∈ descending key as := mem_descending.mpr mem
    rw [ranked, List.mem_append, List.mem_cons] at there
    rcases there with mem | rfl | mem
    · exact absurd fit' (by simpa using none b mem)
    · exact Int.le_refl _
    · exact sorted.2.1.1 b mem
  -- Among the elements with its key it is the first, and these stand as they were given.
  have first : as.find? (fun b => key b = key a ∧ p b = true) = some a := by
    have given := congrArg (List.find? p) (filter_descending key as (key a))
    simp only [List.find?_filter, decide_eq_true_eq] at given
    rw [← given, ranked, List.find?_eq_some_iff_append]
    refine ⟨by simp [fit], above, below, rfl, ?_⟩
    intro b mem
    have unfit : p b = false := by simpa using none b mem
    simp [unfit]
  obtain ⟨-, before, after, rfl, notFirst⟩ := List.find?_eq_some_iff_append.mp first
  refine ⟨before, after, rfl, fit, ?_, ?_⟩
  · intro b mem fit'
    have ne : key b ≠ key a := by
      intro same
      simpa [same, fit'] using notFirst b mem
    exact lt_of_le_of_ne (le b (by simp [mem]) fit') ne
  · intro b mem fit'
    exact le b (by simp [mem]) fit'

/-- What is found first in the ranking is told by the list as it was given. -/
theorem find?_descending_eq_some_iff {p : α → Bool} :
    (descending key as).find? p = some a ↔ Foremost key (p · = true) a as := by
  constructor
  · exact foremost_of_find?_descending
  · intro foremost
    have some' : ((descending key as).find? p).isSome := by
      obtain ⟨before, after, rfl, fit, -, -⟩ := foremost
      exact List.find?_isSome.mpr ⟨a, mem_descending.mpr (by simp), fit⟩
    obtain ⟨b, found⟩ := Option.isSome_iff_exists.mp some'
    rw [found, (foremost_of_find?_descending found).unique foremost]

end Descending

section Ascending

theorem ascending_perm (as : List α) : (ascending key as).Perm as := descending_perm _ as

theorem ascending_sorted (as : List α) : (ascending key as).Pairwise fun a b => key a ≤ key b :=
  (descending_sorted (fun a => -key a) as).imp Int.neg_le_neg_iff.mp

theorem filter_ascending (as : List α) (k : Int) :
    (ascending key as).filter (key · = k) = as.filter (key · = k) := by
  have stable := filter_descending (fun a => -key a) as (-k)
  simp only [Int.neg_inj] at stable
  exact stable

theorem ascending_map (f : β → α) (as : List β) :
    ascending key (as.map f) = (ascending (fun b => key (f b)) as).map f :=
  descending_map (fun a => -key a) f as

end Ascending

end LayeredConfig.Ranking
