import AddressAtlas.Entry
import Mathlib.Data.List.Basic
import Mathlib.Tactic.Common

/-!
# The order of entries

Neighbours of an ascending list are apart. If no range of the list is reversed, then all of its ranges
are apart, the sequence of their boundaries never descends, and a key lies in one range at most.
-/

namespace AddressAtlas.Entry

variable {w : Width}

/-- The boundaries of entries in the order in which a table stores them. -/
def boundaries (es : List (Entry w)) : List (Key w) :=
  es.flatMap fun e => [e.start, e.stop]

@[simp] lemma boundaries_cons (e : Entry w) (es : List (Entry w)) :
    boundaries (e :: es) = e.start :: e.stop :: boundaries es :=
  rfl

@[simp] lemma length_boundaries (es : List (Entry w)) : (boundaries es).length = 2 * es.length := by
  induction es with
  | nil => rfl
  | cons e rest ih =>
    rw [boundaries_cons, List.length_cons, List.length_cons, ih, List.length_cons]
    omega

lemma getElem?_boundaries_start (es : List (Entry w)) (i : Nat) :
    (boundaries es)[2 * i]? = es[i]?.map start := by
  induction es generalizing i with
  | nil => rfl
  | cons e rest ih =>
    cases i with
    | zero => rfl
    | succ i => exact ih i

lemma getElem?_boundaries_stop (es : List (Entry w)) (i : Nat) :
    (boundaries es)[2 * i + 1]? = es[i]?.map stop := by
  induction es generalizing i with
  | nil => rfl
  | cons e rest ih =>
    cases i with
    | zero => rfl
    | succ i => exact ih i

lemma Ascending.tail {a : Entry w} {rest : List (Entry w)} (h : Ascending (a :: rest)) :
    Ascending rest := by
  cases rest with
  | nil => trivial
  | cons b rest => exact h.2

/-- A list ascends exactly when each entry starts after the end of the one before it. -/
theorem ascending_iff_getElem? {es : List (Entry w)} :
    Ascending es ↔ ∀ i a b, es[i]? = some a → es[i + 1]? = some b → a.stop < b.start := by
  induction es with
  | nil => simp [Ascending]
  | cons a rest ih =>
    cases rest with
    | nil => simp [Ascending]
    | cons b rest =>
      constructor
      · rintro ⟨hab, hrest⟩ i x y hx hy
        cases i with
        | zero =>
          obtain rfl : a = x := by simpa using hx
          obtain rfl : b = y := by simpa using hy
          exact hab
        | succ i => exact ih.mp hrest i x y hx hy
      · intro h
        refine ⟨h 0 a b rfl rfl, ih.mpr fun i x y hx hy => ?_⟩
        exact h (i + 1) x y hx hy

lemma Ascending.of_append_left {l r : List (Entry w)} (h : Ascending (l ++ r)) : Ascending l := by
  rw [ascending_iff_getElem?] at h ⊢
  intro i a b ha hb
  obtain ⟨hi, -⟩ := List.getElem?_eq_some_iff.mp hb
  refine h i a b ?_ ?_
  · rw [List.getElem?_append_left (by omega), ha]
  · rw [List.getElem?_append_left hi, hb]

lemma Ascending.stop_lt_of_mem {a b : Entry w} {rest : List (Entry w)} (h : Ascending (a :: rest))
    (hproper : ∀ e ∈ rest, e.start ≤ e.stop) (hb : b ∈ rest) : a.stop < b.start := by
  induction rest generalizing a with
  | nil => cases hb
  | cons c rest ih =>
    cases hb with
    | head => exact h.1
    | tail _ hb =>
      have hac : a.stop < c.start := h.1
      have hc : c.start ≤ c.stop := hproper c List.mem_cons_self
      have hcb : c.stop < b.start := ih h.2 (fun e he => hproper e (List.mem_cons_of_mem c he)) hb
      exact BitVec.lt_trans (Std.lt_of_lt_of_le hac hc) hcb

/-- Of two entries the earlier one ends before the later one starts. -/
theorem Ascending.pairwise {es : List (Entry w)} (h : Ascending es)
    (hproper : ∀ e ∈ es, e.start ≤ e.stop) : es.Pairwise fun a b => a.stop < b.start := by
  induction es with
  | nil => exact List.Pairwise.nil
  | cons a rest ih =>
    have hrest : ∀ e ∈ rest, e.start ≤ e.stop := fun e he => hproper e (List.mem_cons_of_mem a he)
    exact List.Pairwise.cons (fun b hb => h.stop_lt_of_mem hrest hb) (ih h.tail hrest)

/-- The boundaries of ascending ranges never descend. -/
theorem Ascending.pairwise_boundaries {es : List (Entry w)} (h : Ascending es)
    (hproper : ∀ e ∈ es, e.start ≤ e.stop) : (boundaries es).Pairwise (· ≤ ·) := by
  induction es with
  | nil => exact List.Pairwise.nil
  | cons a rest ih =>
    have hrest : ∀ e ∈ rest, e.start ≤ e.stop := fun e he => hproper e (List.mem_cons_of_mem a he)
    have ha : a.start ≤ a.stop := hproper a List.mem_cons_self
    have hstop : ∀ key ∈ boundaries rest, a.stop ≤ key := by
      intro key hkey
      obtain ⟨b, hb, hmem⟩ := List.mem_flatMap.mp hkey
      have hlt : a.stop < b.start := h.stop_lt_of_mem hrest hb
      have hle : b.start ≤ b.stop := hrest b hb
      simp only [List.mem_cons, List.not_mem_nil, or_false] at hmem
      rcases hmem with rfl | rfl
      · exact BitVec.le_of_lt hlt
      · exact BitVec.le_trans (BitVec.le_of_lt hlt) hle
    rw [boundaries_cons]
    refine List.Pairwise.cons ?_ (List.Pairwise.cons hstop (ih h.tail hrest))
    intro key hkey
    cases hkey with
    | head => exact ha
    | tail _ hkey => exact BitVec.le_trans ha (hstop key hkey)

lemma not_contains_of_stop_lt {a b : Entry w} {key : Key w} (h : a.stop < b.start)
    (ha : a.Contains key) : ¬b.Contains key := by
  intro hb
  have hkey : a.stop < key := Std.lt_of_lt_of_le h hb.1
  exact BitVec.not_le.mpr hkey ha.2

lemma Ascending.stop_lt_of_index_lt {es : List (Entry w)} (h : Ascending es)
    (hproper : ∀ e ∈ es, e.start ≤ e.stop) {i j : Nat} {a b : Entry w} (hi : es[i]? = some a)
    (hj : es[j]? = some b) (hij : i < j) : a.stop < b.start := by
  obtain ⟨hilt, rfl⟩ := List.getElem?_eq_some_iff.mp hi
  obtain ⟨hjlt, rfl⟩ := List.getElem?_eq_some_iff.mp hj
  exact List.pairwise_iff_getElem.mp (h.pairwise hproper) i j hilt hjlt hij

/-- A key lies in one range at most. -/
theorem Ascending.index_unique {es : List (Entry w)} (h : Ascending es)
    (hproper : ∀ e ∈ es, e.start ≤ e.stop) {key : Key w} {i j : Nat} {a b : Entry w}
    (hi : es[i]? = some a) (hj : es[j]? = some b) (ha : a.Contains key) (hb : b.Contains key) :
    i = j := by
  rcases Nat.lt_trichotomy i j with hij | hij | hij
  · exact absurd hb (not_contains_of_stop_lt (h.stop_lt_of_index_lt hproper hi hj hij) ha)
  · exact hij
  · exact absurd ha (not_contains_of_stop_lt (h.stop_lt_of_index_lt hproper hj hi hij) hb)

/-- A scan for a key finds an entry exactly if its range contains the key. -/
theorem Ascending.find?_eq_some_iff {es : List (Entry w)} (h : Ascending es)
    (hproper : ∀ e ∈ es, e.start ≤ e.stop) {key : Key w} {e : Entry w} :
    es.find? (fun e => e.Contains key) = some e ↔ e ∈ es ∧ e.Contains key := by
  constructor
  · intro hfind
    exact ⟨List.mem_of_find?_eq_some hfind, by simpa using List.find?_some hfind⟩
  · rintro ⟨he, hkey⟩
    have hsome : (es.find? fun e => e.Contains key).isSome :=
      List.find?_isSome.mpr ⟨e, he, by simpa using hkey⟩
    obtain ⟨a, ha⟩ := Option.isSome_iff_exists.mp hsome
    have hakey : a.Contains key := by simpa using List.find?_some ha
    obtain ⟨i, hi⟩ := List.mem_iff_getElem?.mp (List.mem_of_find?_eq_some ha)
    obtain ⟨j, hj⟩ := List.mem_iff_getElem?.mp he
    obtain rfl : i = j := h.index_unique hproper hi hj hakey hkey
    rw [ha, ← hi, hj]

/-- The key lies before the first range, in the gap between two neighbours, or behind the last range. -/
def Uncovered (es : List (Entry w)) (key : Key w) : Prop :=
  (∀ first ∈ es.head?, key < first.start) ∨
    (∃ i a b, es[i]? = some a ∧ es[i + 1]? = some b ∧ a.stop < key ∧ key < b.start) ∨
    ∀ last ∈ es.getLast?, last.stop < key

lemma uncovered_of_not_contains {es : List (Entry w)} {key : Key w}
    (h : ∀ e ∈ es, ¬e.Contains key) : Uncovered es key := by
  induction es with
  | nil => exact .inl fun first hfirst => by cases hfirst
  | cons a rest ih =>
    by_cases hstart : key < a.start
    · left
      intro first hfirst
      obtain rfl : a = first := Option.some.inj hfirst
      exact hstart
    have hstop : a.stop < key := by
      rw [← BitVec.not_le]
      intro hle
      exact h a List.mem_cons_self ⟨BitVec.not_lt.mp hstart, hle⟩
    cases rest with
    | nil =>
      right; right
      intro last hlast
      obtain rfl : a = last := Option.some.inj hlast
      exact hstop
    | cons b rest =>
      rcases ih fun e he => h e (List.mem_cons_of_mem a he) with hfirst | hgap | hlast
      · exact .inr (.inl ⟨0, a, b, rfl, rfl, hstop, hfirst b rfl⟩)
      · obtain ⟨i, c, d, hc, hd, hgap⟩ := hgap
        exact .inr (.inl ⟨i + 1, c, d, hc, hd, hgap⟩)
      · exact .inr (.inr hlast)

lemma Ascending.not_contains_of_behind {es : List (Entry w)} (h : Ascending es)
    (hproper : ∀ e ∈ es, e.start ≤ e.stop) {key : Key w} {i j : Nat} {a e : Entry w}
    (hi : es[i]? = some a) (hj : es[j]? = some e) (hji : j ≤ i) (hkey : a.stop < key) :
    ¬e.Contains key := by
  intro hcontains
  rcases Nat.lt_or_eq_of_le hji with hlt | rfl
  · have hstop : e.stop < a.start := h.stop_lt_of_index_lt hproper hj hi hlt
    have hproper : a.start ≤ a.stop := hproper a (List.mem_of_getElem? hi)
    have hbehind : e.stop < key := BitVec.lt_trans (Std.lt_of_lt_of_le hstop hproper) hkey
    exact BitVec.not_le.mpr hbehind hcontains.2
  · obtain rfl : e = a := Option.some.inj (hj.symm.trans hi)
    exact BitVec.not_le.mpr hkey hcontains.2

lemma Ascending.not_contains_of_before {es : List (Entry w)} (h : Ascending es)
    (hproper : ∀ e ∈ es, e.start ≤ e.stop) {key : Key w} {i j : Nat} {b e : Entry w}
    (hi : es[i]? = some b) (hj : es[j]? = some e) (hij : i ≤ j) (hkey : key < b.start) :
    ¬e.Contains key := by
  intro hcontains
  rcases Nat.lt_or_eq_of_le hij with hlt | rfl
  · have hstart : b.stop < e.start := h.stop_lt_of_index_lt hproper hi hj hlt
    have hproper : b.start ≤ b.stop := hproper b (List.mem_of_getElem? hi)
    have hbefore : key < e.start := BitVec.lt_trans (Std.lt_of_lt_of_le hkey hproper) hstart
    exact BitVec.not_le.mpr hbefore hcontains.1
  · obtain rfl : e = b := Option.some.inj (hj.symm.trans hi)
    exact BitVec.not_le.mpr hkey hcontains.1

/-- The keys without a range are those before, between and behind the ranges. -/
theorem Ascending.uncovered_iff {es : List (Entry w)} (h : Ascending es)
    (hproper : ∀ e ∈ es, e.start ≤ e.stop) {key : Key w} :
    Uncovered es key ↔ ∀ e ∈ es, ¬e.Contains key := by
  refine ⟨?_, uncovered_of_not_contains⟩
  intro huncovered e he
  obtain ⟨j, hj⟩ := List.mem_iff_getElem?.mp he
  obtain ⟨hjlt, -⟩ := List.getElem?_eq_some_iff.mp hj
  rcases huncovered with hfirst | ⟨i, a, b, ha, hb, hkeya, hkeyb⟩ | hlast
  · have hzero : es[0]? = some es[0] := List.getElem?_eq_getElem (by omega)
    have hkey := hfirst es[0] (List.head?_eq_getElem?.trans hzero)
    exact h.not_contains_of_before hproper hzero hj (Nat.zero_le j) hkey
  · by_cases hji : j ≤ i
    · exact h.not_contains_of_behind hproper ha hj hji hkeya
    · exact h.not_contains_of_before hproper hb hj (by omega) hkeyb
  · have hend : es[es.length - 1]? = some es[es.length - 1] := List.getElem?_eq_getElem (by omega)
    have hkey := hlast es[es.length - 1] (List.getLast?_eq_getElem?.trans hend)
    exact h.not_contains_of_behind hproper hend hj (by omega) hkey

end AddressAtlas.Entry
