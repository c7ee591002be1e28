import ContextDesk.Lib.Outcome

/-!
# Tables as lists of rows

A table is a list of rows; `Distinct key rows` says that no two rows share a key. `join` lists
the pairs of an inner join, `updateFrom` is `UPDATE .. FROM`. `matched_perm` is the counting
argument behind every incremental statistic here: when each change names exactly one row, what
the changes say about the rows they name is, up to order, what those rows say about themselves.
`extreme` is `MIN` or `MAX` of a column, by the same flag for both.
-/

namespace ContextDesk.Lib

open List

variable {α β γ κ : Type}

/-! ## Keys -/

/-- No two rows share a key. -/
def Distinct (key : α → κ) (rows : List α) : Prop := (rows.map key).Nodup

instance [DecidableEq κ] (key : α → κ) (rows : List α) : Decidable (Distinct key rows) :=
  inferInstanceAs (Decidable (rows.map key).Nodup)

variable {key : α → κ}

theorem Distinct.eq_of_key {rows : List α} (h : Distinct key rows) {r s : α} (hr : r ∈ rows)
    (hs : s ∈ rows) (e : key r = key s) : r = s :=
  inj_on_of_nodup_map h hr hs e

theorem Distinct.sublist {rows rows' : List α} (h : Distinct key rows) (hs : rows'.Sublist rows) :
    Distinct key rows' :=
  List.Nodup.sublist (hs.map key) h

/-- Replacing rows by rows with the same keys keeps the keys distinct. -/
theorem Distinct.map_rows {rows : List α} {f : α → α} (h : Distinct key rows)
    (hf : ∀ r, key (f r) = key r) : Distinct key (rows.map f) := by
  have : key ∘ f = key := funext hf
  simpa [Distinct, map_map, this] using h

/-- A condition that pins the key of a row selects that row alone. -/
theorem Distinct.filter_eq_singleton {rows : List α} (h : Distinct key rows) {p : α → Bool}
    {r : α} (hr : r ∈ rows) (hp : p r = true) (hk : ∀ s ∈ rows, p s = true → key s = key r) :
    rows.filter p = [r] := by
  have hnd : (rows.filter p).Nodup := (List.Nodup.of_map key h).filter p
  have hmem : ∀ s, s ∈ rows.filter p ↔ s ∈ [r] := by
    intro s
    rw [mem_filter, mem_singleton]
    constructor
    · rintro ⟨hs, hps⟩
      exact h.eq_of_key hs hr (hk s hs hps)
    · rintro rfl
      exact ⟨hr, hp⟩
  exact perm_singleton.mp ((perm_ext_iff_of_nodup hnd (nodup_singleton r)).mpr hmem)

theorem Distinct.find?_eq_some {rows : List α} (h : Distinct key rows) {p : α → Bool} {r : α}
    (hr : r ∈ rows) (hp : p r = true) (hk : ∀ s ∈ rows, p s = true → key s = key r) :
    rows.find? p = some r := by
  rw [← head?_filter, h.filter_eq_singleton hr hp hk, head?_cons]

/-! ## Joins -/

/-- The pairs of an inner join. -/
def join (on : α → β → Bool) (xs : List α) (ys : List β) : List (α × β) :=
  xs.flatMap fun x => (ys.filter (on x)).map fun y => (x, y)

variable {on : α → β → Bool}

/-- A join in which every left row meets exactly one right row is as long as the left side. -/
theorem length_join_of_single {xs : List α} {ys : List β}
    (h : ∀ x ∈ xs, (ys.filter (on x)).length = 1) : (join on xs ys).length = xs.length := by
  induction xs with
  | nil => rfl
  | cons x xs ih =>
    have := ih fun x' hx => h x' (mem_cons_of_mem _ hx)
    simp only [join, flatMap_cons, length_append, length_map, length_cons]
      at this ⊢
    rw [h x mem_cons_self, this]
    omega

theorem length_join_le {xs : List α} {ys : List β} (h : ∀ x ∈ xs, (ys.filter (on x)).length ≤ 1) :
    (join on xs ys).length ≤ xs.length := by
  induction xs with
  | nil => simp [join]
  | cons x xs ih =>
    have h1 := h x mem_cons_self
    have h2 := ih fun x' hx => h x' (mem_cons_of_mem _ hx)
    simp only [join, flatMap_cons, length_append, length_map, length_cons]
      at h2 ⊢
    omega

/-- A join no left row of which meets two right rows, and that is as long as the left side,
gives every left row a partner. -/
theorem join_total {xs : List α} {ys : List β} (h : ∀ x ∈ xs, (ys.filter (on x)).length ≤ 1)
    (hlen : (join on xs ys).length = xs.length) : ∀ x ∈ xs, ∃ y ∈ ys, on x y = true := by
  induction xs with
  | nil => simp
  | cons x xs ih =>
    have h1 := h x mem_cons_self
    have h2 : (join on xs ys).length ≤ xs.length :=
      length_join_le fun x' hx => h x' (mem_cons_of_mem _ hx)
    simp only [join, flatMap_cons, length_append, length_map, length_cons]
      at hlen h2
    intro z hz
    rcases mem_cons.mp hz with rfl | hz
    · have hpos : 0 < (ys.filter (on z)).length := by omega
      obtain ⟨y, hy⟩ := exists_mem_of_length_pos hpos
      exact ⟨y, (mem_filter.mp hy).1, (mem_filter.mp hy).2⟩
    · refine ih (fun x' hx => h x' (mem_cons_of_mem _ hx)) ?_ z hz
      simp only [join]
      omega

theorem mem_join {xs : List α} {ys : List β} {x : α} {y : β} :
    (x, y) ∈ join on xs ys ↔ x ∈ xs ∧ y ∈ ys ∧ on x y = true := by
  simp [join]

/-- The left rows of a join in which a left row meets one right row or none are the rows that
meet one, in order. -/
theorem map_fst_join {p : α → Bool} {xs : List α} {ys : List β}
    (h : ∀ x ∈ xs, (ys.filter (on x)).length = if p x then 1 else 0) :
    (join on xs ys).map Prod.fst = xs.filter p := by
  induction xs with
  | nil => rfl
  | cons x xs ih =>
    have hx := h x mem_cons_self
    have ih := ih fun x' hx' => h x' (mem_cons_of_mem _ hx')
    simp only [join, flatMap_cons, map_append] at ih ⊢
    rw [ih]
    by_cases hp : p x = true
    · rw [if_pos hp] at hx
      obtain ⟨y, hy⟩ := length_eq_one_iff.mp hx
      simp [hy, hp]
    · rw [if_neg hp] at hx
      simp [length_eq_zero_iff.mp hx, hp]

/-! ## Updates -/

/-- What an update makes of one row. -/
def updateRow (on : α → β → Bool) (set : α → β → α) (changes : List β) (r : α) : α :=
  match changes.find? (on r) with
  | some c => set r c
  | none => r

/-- `UPDATE rows SET .. FROM changes WHERE on`. -/
def updateFrom (on : α → β → Bool) (set : α → β → α) (changes : List β) (rows : List α) : List α :=
  rows.map (updateRow on set changes)

/-- The number of rows that `updateFrom` changes. -/
def updatedCount (on : α → β → Bool) (changes : List β) (rows : List α) : Nat :=
  rows.countP fun r => changes.any (on r)

theorem updateRow_of_find {set : α → β → α} {changes : List β} {r : α} {c : β}
    (h : changes.find? (on r) = some c) : updateRow on set changes r = set r c := by
  simp [updateRow, h]

theorem updateRow_of_none {set : α → β → α} {changes : List β} {r : α}
    (h : ∀ c ∈ changes, on r c = false) : updateRow on set changes r = r := by
  have : changes.find? (on r) = none := find?_eq_none.mpr fun c hc => by simp [h c hc]
  simp [updateRow, this]

theorem length_updateFrom (on : α → β → Bool) (set : α → β → α) (changes : List β)
    (rows : List α) : (updateFrom on set changes rows).length = rows.length := by
  simp [updateFrom]

section Matched

variable [DecidableEq κ] {rowKey : α → κ} {changeKey : β → κ} {rows : List α} {changes : List β}

/-- Some change names the row. -/
def named (rowKey : α → κ) (changeKey : β → κ) (changes : List β) (r : α) : Bool :=
  changes.any fun c => rowKey r = changeKey c

theorem named_iff {r : α} :
    named rowKey changeKey changes r = true ↔ ∃ c ∈ changes, rowKey r = changeKey c := by
  simp [named]

theorem keys_named_perm (hr : Distinct rowKey rows) (hc : Distinct changeKey changes)
    (hcov : ∀ c ∈ changes, ∃ r ∈ rows, rowKey r = changeKey c) :
    ((rows.filter (named rowKey changeKey changes)).map rowKey).Perm (changes.map changeKey) := by
  have hnd : ((rows.filter (named rowKey changeKey changes)).map rowKey).Nodup :=
    hr.sublist filter_sublist
  refine (perm_ext_iff_of_nodup hnd hc).mpr fun k => ?_
  simp only [mem_map, mem_filter, named_iff]
  constructor
  · rintro ⟨r, ⟨-, c, hc, e⟩, rfl⟩
    exact ⟨c, hc, e.symm⟩
  · rintro ⟨c, hc, rfl⟩
    obtain ⟨r, hr, e⟩ := hcov c hc
    exact ⟨r, ⟨hr, c, hc, e⟩, e⟩

/-- When every change names exactly one row, a property of the named rows that their changes
know too reads the same, up to order, off the rows and off the changes. -/
theorem matched_perm (hr : Distinct rowKey rows) (hc : Distinct changeKey changes)
    (hcov : ∀ c ∈ changes, ∃ r ∈ rows, rowKey r = changeKey c) {f : α → γ} {g : β → γ}
    (hfg : ∀ r ∈ rows, ∀ c ∈ changes, rowKey r = changeKey c → f r = g c) :
    ((rows.filter (named rowKey changeKey changes)).map f).Perm (changes.map g) := by
  -- both sides factor through the key: look the change up by it
  let G : κ → Option γ := fun k => (changes.find? fun c => changeKey c = k).map g
  have hG : ∀ c ∈ changes, G (changeKey c) = some (g c) := by
    intro c hcm
    have := hc.find?_eq_some (p := fun c' => decide (changeKey c' = changeKey c)) hcm (by simp)
      (fun s _ hs => by simpa using hs)
    simp [G, this]
  have hleft : ((rows.filter (named rowKey changeKey changes)).map rowKey).map G =
      ((rows.filter (named rowKey changeKey changes)).map f).map some := by
    simp only [map_map]
    refine map_congr_left fun r hrm => ?_
    obtain ⟨hrm, hn⟩ := mem_filter.mp hrm
    obtain ⟨c, hcm, e⟩ := named_iff.mp hn
    simp [e, hG c hcm, hfg r hrm c hcm e]
  have hright : (changes.map changeKey).map G = (changes.map g).map some := by
    simp only [map_map]
    exact map_congr_left fun c hcm => by simp [hG c hcm]
  have hperm := (keys_named_perm hr hc hcov).map G
  rw [hleft, hright] at hperm
  simpa using hperm.filterMap id

theorem length_named (hr : Distinct rowKey rows) (hc : Distinct changeKey changes)
    (hcov : ∀ c ∈ changes, ∃ r ∈ rows, rowKey r = changeKey c) :
    rows.countP (named rowKey changeKey changes) = changes.length := by
  have := (keys_named_perm hr hc hcov).length_eq
  simpa [countP_eq_length_filter] using this

end Matched

/-! ## `MIN` and `MAX` -/

section Extreme

variable [LinearOrder α]

/-- `MIN` of a column, or `MAX`. -/
def extreme (minimum : Bool) (l : List α) : Option α :=
  if minimum then l.min? else l.max?

/-- The better of two values for `MIN`, or for `MAX`. -/
def pick (minimum : Bool) (a b : α) : α :=
  if minimum then min a b else max a b

/-- `a` comes first for `MIN`, or for `MAX`. -/
def Beats (minimum : Bool) (a b : α) : Prop :=
  if minimum then a ≤ b else b ≤ a

variable {minimum : Bool}

theorem extreme_eq_some {l : List α} {a : α} :
    extreme minimum l = some a ↔ a ∈ l ∧ ∀ b ∈ l, Beats minimum a b := by
  cases minimum with
  | true => simp [extreme, Beats, min?_eq_some_iff]
  | false => simp [extreme, Beats, max?_eq_some_iff]

theorem extreme_eq_none {l : List α} : extreme minimum l = none ↔ l = [] := by
  cases minimum <;> simp [extreme]

theorem extreme_isSome (minimum : Bool) {l : List α} (h : l ≠ []) :
    ∃ a, extreme minimum l = some a :=
  Option.ne_none_iff_exists'.mp fun hn => h (extreme_eq_none.mp hn)

theorem extreme_congr {l l' : List α} (h : ∀ a, a ∈ l ↔ a ∈ l') :
    extreme minimum l = extreme minimum l' := by
  have hnil : l = [] ↔ l' = [] := by simp [eq_nil_iff_forall_not_mem, h]
  cases hl : extreme minimum l with
  | none => exact (extreme_eq_none.mpr (hnil.mp (extreme_eq_none.mp hl))).symm
  | some a =>
    obtain ⟨ha, hb⟩ := extreme_eq_some.mp hl
    exact (extreme_eq_some.mpr ⟨(h a).mp ha, fun b hb' => hb b ((h b).mpr hb')⟩).symm

theorem extreme_append {l l' : List α} {b : α} (hb : extreme minimum l' = some b) :
    extreme minimum (l ++ l') = some ((extreme minimum l).elim b fun a => pick minimum a b) := by
  obtain ⟨hb1, hb2⟩ := extreme_eq_some.mp hb
  rw [extreme_eq_some]
  cases hl : extreme minimum l with
  | none =>
    rw [extreme_eq_none] at hl
    subst hl
    exact ⟨by simpa using hb1, by simpa using hb2⟩
  | some a =>
    obtain ⟨ha1, ha2⟩ := extreme_eq_some.mp hl
    cases minimum with
    | true =>
      simp only [Option.elim_some, pick, Beats, ↓reduceIte, mem_append] at *
      refine ⟨?_, ?_⟩
      · rcases min_choice a b with h | h <;> simp [h, ha1, hb1]
      · rintro c (hc | hc)
        · exact (min_le_left a b).trans (ha2 c hc)
        · exact (min_le_right a b).trans (hb2 c hc)
    | false =>
      simp only [Option.elim_some, pick, Beats, Bool.false_eq_true, ↓reduceIte,
        mem_append] at *
      refine ⟨?_, ?_⟩
      · rcases max_choice a b with h | h <;> simp [h, ha1, hb1]
      · rintro c (hc | hc)
        · exact (ha2 c hc).trans (le_max_left a b)
        · exact (hb2 c hc).trans (le_max_right a b)

end Extreme

end ContextDesk.Lib
