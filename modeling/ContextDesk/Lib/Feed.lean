import Mathlib.Data.List.Sort
import Mathlib.Order.MinMax

/-!
# Feeds read by a cursor

Items carry a time. A poll answers those past a cursor, oldest first, at most `limit` of them; the
reader moves its cursor to the newest time it got and polls again until the answer is empty
(`drain`). Where a batch ends between two items of one time, what is left of that time is never
answered: `poll_cases` is the one poll, and `drain_exact` says that a reader gets everything past
its cursor exactly when no batch ends so (`Uncut`). The order of items of one time is open: each
poll may scan the items in an order of its own.
-/

namespace ContextDesk.Lib.Feed

open List

variable {β : Type} (key : β → Int) (limit : Nat)

def ahead (items : List β) (c : Int) : List β := items.filter fun b => c < key b

def poll (items : List β) (c : Int) : List β :=
  ((ahead key items c).insertionSort fun a b => key a ≤ key b).take limit

/-- The newest time of a batch, or of what came before it. -/
def newest (c : Int) (batch : List β) : Int := batch.foldl (fun c b => max c (key b)) c

def drain (scan : Int → List β) : Nat → Int → Option (List β)
  | 0, _ => none
  | fuel + 1, c =>
    let batch := poll key limit (scan c) c
    if batch.isEmpty then some []
    else (drain scan fuel (newest key c batch)).map (batch ++ ·)

/-- How many items are past a cursor, up to a time. -/
def upTo (items : List β) (c s : Int) : Nat :=
  ((ahead key items c).filter fun b => key b ≤ s).length

/-- How many items are past a cursor, before a time. -/
def before (items : List β) (c s : Int) : Nat :=
  ((ahead key items c).filter fun b => key b < s).length

/-- So many full batches past a cursor end between two items of one time. -/
def Cut (items : List β) (c : Int) (k : Nat) (s : Int) : Prop :=
  before key items c s < limit * k ∧ limit * k < upTo key items c s

def Uncut (items : List β) (c : Int) : Prop := ∀ k s, ¬ Cut key limit items c k s

variable {key : β → Int} {limit : Nat} {items : List β}

variable {c : Int}

theorem mem_ahead {b : β} : b ∈ ahead key items c ↔ b ∈ items ∧ c < key b := by
  simp [ahead]

/-! ## Counting -/

theorem length_filter_split {p q r : β → Bool} (l : List β)
    (h : ∀ b, (p b).toNat = (q b).toNat + (r b).toNat) :
    (l.filter p).length = (l.filter q).length + (l.filter r).length := by
  induction l with
  | nil => rfl
  | cons b l ih =>
    have hb := h b
    cases hp : p b <;> cases hq : q b <;> cases hr : r b <;>
      simp [hp, hq, hr] at hb ⊢ <;> omega

variable (key) in
theorem upTo_split (items : List β) {c c' s : Int} (hc : c ≤ c') (hs : c' ≤ s) :
    upTo key items c s = upTo key items c c' + upTo key items c' s := by
  unfold upTo ahead
  simp only [filter_filter]
  apply length_filter_split
  intro b
  have hpast : c' < key b ↔ ¬ key b ≤ c' := Int.not_le.symm
  by_cases h₁ : c < key b <;> by_cases h₂ : key b ≤ c' <;> by_cases h₃ : key b ≤ s <;>
    simp [h₁, h₂, h₃, hpast] <;> omega

variable (key) in
theorem before_split (items : List β) {c c' s : Int} (hc : c ≤ c') (hs : c' < s) :
    before key items c s = upTo key items c c' + before key items c' s := by
  unfold before upTo ahead
  simp only [filter_filter]
  apply length_filter_split
  intro b
  have hpast : c' < key b ↔ ¬ key b ≤ c' := Int.not_le.symm
  by_cases h₁ : c < key b <;> by_cases h₂ : key b ≤ c' <;> by_cases h₃ : key b < s <;>
    simp [h₁, h₂, h₃, hpast] <;> omega

variable (key) in
theorem ahead_split (items : List β) {c c' : Int} (hc : c ≤ c') :
    (ahead key items c).length = upTo key items c c' + (ahead key items c').length := by
  unfold upTo ahead
  simp only [filter_filter]
  apply length_filter_split
  intro b
  have hpast : c' < key b ↔ ¬ key b ≤ c' := Int.not_le.symm
  by_cases h₁ : c < key b <;> by_cases h₂ : key b ≤ c' <;> simp [h₁, h₂, hpast]
  omega

/-! ## One poll -/

variable (key) in
theorem newest_spec (batch : List β) (c : Int) :
    c ≤ newest key c batch ∧ (∀ b ∈ batch, key b ≤ newest key c batch) ∧
      (newest key c batch = c ∨ ∃ b ∈ batch, key b = newest key c batch) := by
  induction batch generalizing c with
  | nil => exact ⟨Int.le_refl c, by simp, Or.inl rfl⟩
  | cons b batch ih =>
    obtain ⟨hc, hall, hsome⟩ := ih (max c (key b))
    unfold newest at hc hall hsome ⊢
    rw [foldl_cons]
    refine ⟨le_trans (le_max_left _ _) hc, ?_, ?_⟩
    · intro a ha
      rcases mem_cons.mp ha with rfl | ha
      · exact le_trans (le_max_right _ _) hc
      · exact hall a ha
    · rcases hsome with hsome | ⟨a, ha, hkey⟩
      · rcases max_choice c (key b) with hmax | hmax
        · exact Or.inl (hsome.trans hmax)
        · exact Or.inr ⟨b, mem_cons_self, (hsome.trans hmax).symm⟩
      · exact Or.inr ⟨a, mem_cons_of_mem _ ha, hkey⟩

variable (key limit) in
/-- The items past a cursor as a poll cuts them: a batch and what is left, none of it older. -/
theorem exists_rest (xs : List β) (c : Int) : ∃ rest,
    (poll key limit xs c ++ rest).Perm (ahead key xs c) ∧
    (∀ a ∈ poll key limit xs c, ∀ b ∈ rest, key a ≤ key b) ∧
    (poll key limit xs c).length ≤ limit ∧
    (rest ≠ [] → (poll key limit xs c).length = limit) := by
  unfold poll
  generalize hsort : (ahead key xs c).insertionSort (fun a b => key a ≤ key b) = sorted
  have hperm : sorted.Perm (ahead key xs c) := hsort ▸ perm_insertionSort _ _
  have hpairwise : sorted.Pairwise fun a b => key a ≤ key b := by
    have htotal : Std.Total fun a b : β => key a ≤ key b := ⟨fun a b => Int.le_total _ _⟩
    have htrans : IsTrans β fun a b => key a ≤ key b := ⟨fun _ _ _ h h' => Int.le_trans h h'⟩
    rw [← hsort]
    exact pairwise_insertionSort _ _
  refine ⟨sorted.drop limit, by rw [take_append_drop]; exact hperm, ?_, ?_, ?_⟩
  · rw [← take_append_drop limit sorted, pairwise_append] at hpairwise
    exact hpairwise.2.2
  · exact length_take_le _ _
  · intro hrest
    have hlen : limit < sorted.length := by
      by_contra hle
      exact hrest (drop_eq_nil_of_le (Nat.not_lt.mp hle))
    rw [length_take, Nat.min_eq_left (Nat.le_of_lt hlen)]

theorem upTo_of_perm {batch rest : List β} (h : (batch ++ rest).Perm (ahead key items c))
    (s : Int) :
    upTo key items c s =
      (batch.filter fun b => key b ≤ s).length + (rest.filter fun b => key b ≤ s).length := by
  unfold upTo
  rw [← (h.filter _).length_eq, filter_append, length_append]

theorem before_of_perm {batch rest : List β} (h : (batch ++ rest).Perm (ahead key items c))
    (s : Int) :
    before key items c s =
      (batch.filter fun b => key b < s).length + (rest.filter fun b => key b < s).length := by
  unfold before
  rw [← (h.filter _).length_eq, filter_append, length_append]

variable (key) in
/-- A poll is empty, or answers all that is up to its newest time, or is cut within that time. -/
theorem poll_cases (hlimit : 0 < limit) (hnodup : items.Nodup) {xs : List β}
    (hxs : xs.Perm items) (c : Int) :
    (poll key limit xs c = [] ∧ ahead key items c = []) ∨
    (poll key limit xs c ≠ [] ∧ c < newest key c (poll key limit xs c) ∧
      (∀ b ∈ poll key limit xs c,
        b ∈ items ∧ c < key b ∧ key b ≤ newest key c (poll key limit xs c)) ∧
      (((∀ s, ¬ Cut key limit items c 1 s) ∧
        (∀ b ∈ items, c < key b → key b ≤ newest key c (poll key limit xs c) →
          b ∈ poll key limit xs c) ∧
        ((ahead key items c).length ≤ limit ∨
          upTo key items c (newest key c (poll key limit xs c)) = limit)) ∨
      (Cut key limit items c 1 (newest key c (poll key limit xs c)) ∧
        ∃ b ∈ items, c < key b ∧ key b = newest key c (poll key limit xs c) ∧
          b ∉ poll key limit xs c))) := by
  obtain ⟨rest, hperm, hsorted, hle, hfull⟩ := exists_rest key limit xs c
  generalize poll key limit xs c = batch at *
  have hperm : (batch ++ rest).Perm (ahead key items c) := hperm.trans (hxs.filter _)
  have hmem : ∀ b, b ∈ batch ∨ b ∈ rest ↔ b ∈ items ∧ c < key b := by
    intro b
    rw [← mem_append, hperm.mem_iff, mem_ahead]
  by_cases hempty : batch = []
  · have hrest : rest = [] := by
      by_contra hne
      have := hfull hne
      rw [hempty, length_nil] at this
      omega
    rw [hempty, hrest] at hperm
    exact Or.inl ⟨hempty, hperm.symm.eq_nil⟩
  right
  obtain ⟨-, hbound, hnewest⟩ := newest_spec key batch c
  generalize newest key c batch = c' at *
  obtain ⟨a, ha, hac⟩ : ∃ a ∈ batch, key a = c' := by
    rcases hnewest with rfl | h
    · obtain ⟨b, hb⟩ := exists_mem_of_ne_nil batch hempty
      exact absurd (hbound b hb) (Int.not_le.mpr ((hmem b).mp (Or.inl hb)).2)
    · exact h
  have hca : c < c' := hac ▸ ((hmem a).mp (Or.inl ha)).2
  refine ⟨hempty, hca, fun b hb => ⟨((hmem b).mp (Or.inl hb)).1, ((hmem b).mp (Or.inl hb)).2,
    hbound b hb⟩, ?_⟩
  have hlater : ∀ b ∈ rest, c' ≤ key b := fun b hb => hac ▸ hsorted a ha b hb
  by_cases hcut : ∃ b ∈ rest, key b = c'
  · obtain ⟨b, hb, hbc⟩ := hcut
    have hlen := hfull (ne_nil_of_mem hb)
    refine Or.inr ⟨⟨?_, ?_⟩, b, ((hmem b).mp (Or.inr hb)).1, ((hmem b).mp (Or.inr hb)).2, hbc, ?_⟩
    · have hrest : rest.filter (fun b => key b < c') = [] := by
        rw [filter_eq_nil_iff]
        intro b hb
        simpa using hlater b hb
      have hless : (batch.filter fun b => key b < c').length < batch.length := by
        rw [length_filter_lt_length_iff_exists]
        exact ⟨a, ha, by simp [hac]⟩
      rw [before_of_perm hperm, hrest, length_nil]
      omega
    · have hall : batch.filter (fun b => key b ≤ c') = batch :=
        filter_eq_self.mpr fun b hb => by simpa using hbound b hb
      have hpos : 0 < (rest.filter fun b => key b ≤ c').length :=
        length_pos_of_mem (mem_filter.mpr ⟨hb, by simp [hbc]⟩)
      rw [upTo_of_perm hperm, hall]
      omega
    · have hnodup' : (batch ++ rest).Nodup := hperm.nodup_iff.mpr (hnodup.filter _)
      exact fun hb' => (nodup_append.mp hnodup').2.2 b hb' b hb rfl
  · have hlater' : ∀ b ∈ rest, c' < key b := fun b hb =>
      lt_of_le_of_ne (hlater b hb) fun e => hcut ⟨b, hb, e.symm⟩
    refine Or.inl ⟨?_, ?_, ?_⟩
    · rintro s ⟨hbefore, hupTo⟩
      rw [before_of_perm hperm] at hbefore
      rw [upTo_of_perm hperm] at hupTo
      have hbatch := length_filter_le (fun b => decide (key b ≤ s)) batch
      have hpos : 0 < (rest.filter fun b => key b ≤ s).length := by omega
      obtain ⟨b, hb⟩ := exists_mem_of_length_pos hpos
      obtain ⟨hb, hbs⟩ := mem_filter.mp hb
      have hall : batch.filter (fun b => key b < s) = batch :=
        filter_eq_self.mpr fun x hx => by
          have h₁ := hbound x hx
          have h₂ := hlater' b hb
          simp only [decide_eq_true_eq] at hbs ⊢
          omega
      have hlen := hfull (ne_nil_of_mem hb)
      rw [hall] at hbefore
      omega
    · intro b hb hcb hbc
      rcases (hmem b).mpr ⟨hb, hcb⟩ with h | h
      · exact h
      · exact absurd hbc (Int.not_le.mpr (hlater' b h))
    · by_cases hrest : rest = []
      · left
        rw [← hperm.length_eq, hrest, append_nil]
        exact hle
      · right
        have hall : batch.filter (fun b => key b ≤ c') = batch :=
          filter_eq_self.mpr fun b hb => by simpa using hbound b hb
        have hnone : rest.filter (fun b => key b ≤ c') = [] := by
          rw [filter_eq_nil_iff]
          intro b hb
          simpa using hlater' b hb
        rw [upTo_of_perm hperm, hall, hnone, hfull hrest]
        rfl

/-! ## Reading on -/

theorem uncut_of_length_le (h : (ahead key items c).length ≤ limit) : Uncut key limit items c := by
  rintro k s ⟨hbefore, hupTo⟩
  have hle : upTo key items c s ≤ (ahead key items c).length := length_filter_le _ _
  have hk : k ≠ 0 := by
    rintro rfl
    omega
  have hmul : limit ≤ limit * k := Nat.le_mul_of_pos_right _ (Nat.pos_of_ne_zero hk)
  omega

/-- After a whole batch the cuts to come are those behind it. -/
theorem uncut_next {c' : Int} (hc : c ≤ c') (hfirst : ∀ s, ¬ Cut key limit items c 1 s)
    (hfull : upTo key items c c' = limit) : Uncut key limit items c ↔ Uncut key limit items c' := by
  constructor
  · rintro h k s ⟨hbefore, hupTo⟩
    have hs : c' < s := by
      have hpos : 0 < upTo key items c' s := Nat.lt_of_le_of_lt (Nat.zero_le _) hupTo
      obtain ⟨b, hb⟩ := exists_mem_of_length_pos hpos
      obtain ⟨hb, hbs⟩ := mem_filter.mp hb
      have hcb := (mem_ahead.mp hb).2
      simp only [decide_eq_true_eq] at hbs
      omega
    refine h (k + 1) s ⟨?_, ?_⟩
    · rw [before_split key items hc hs, hfull, Nat.mul_succ]
      omega
    · rw [upTo_split key items hc (Int.le_of_lt hs), hfull, Nat.mul_succ]
      omega
  · rintro h k s hcut
    match k, hcut with
    | 0, hcut => exact Nat.not_lt_zero _ hcut.1
    | 1, hcut => exact hfirst s hcut
    | k + 2, ⟨hbefore, hupTo⟩ =>
      rw [Nat.mul_succ] at hbefore hupTo
      have hmul : limit ≤ limit * (k + 1) := Nat.le_mul_of_pos_right _ (Nat.succ_pos k)
      by_cases hs : c' < s
      · rw [before_split key items hc hs, hfull] at hbefore
        rw [upTo_split key items hc (Int.le_of_lt hs), hfull] at hupTo
        exact h (k + 1) s ⟨by omega, by omega⟩
      · by_cases hcs : c ≤ s
        · have := upTo_split key items hcs (Int.not_lt.mp hs)
          omega
        · have hnone : upTo key items c s = 0 := by
            unfold upTo
            rw [length_eq_zero_iff, filter_eq_nil_iff]
            intro b hb
            have := (mem_ahead.mp hb).2
            simp only [decide_eq_true_eq]
            omega
          omega

/-- A reader ends, and has everything past its first cursor exactly when no batch was cut. -/
theorem drain_exact (hlimit : 0 < limit) (hnodup : items.Nodup) {scan : Int → List β}
    (hscan : ∀ c, (scan c).Perm items) {fuel : Nat} (hfuel : (ahead key items c).length < fuel) :
    ∃ out, drain key limit scan fuel c = some out ∧ (∀ b ∈ out, b ∈ items ∧ c < key b) ∧
      ((∀ b ∈ items, c < key b → b ∈ out) ↔ Uncut key limit items c) := by
  induction fuel generalizing c with
  | zero => exact absurd hfuel (Nat.not_lt_zero _)
  | succ fuel ih =>
    unfold drain
    simp only
    rcases poll_cases key hlimit hnodup (hscan c) c with
      ⟨hempty, hnone⟩ | ⟨hne, hcc, hbatch, hcases⟩
    · rw [hempty]
      refine ⟨[], rfl, by simp, ?_⟩
      constructor
      · intro _
        exact uncut_of_length_le (by rw [hnone]; exact Nat.zero_le _)
      · intro _ b hb hcb
        have := mem_ahead.mpr ⟨hb, hcb⟩
        rw [hnone] at this
        cases this
    · generalize poll key limit (scan c) c = batch at *
      generalize newest key c batch = c' at *
      have hlt : (ahead key items c').length < (ahead key items c).length := by
        have hpos : 0 < upTo key items c c' := by
          obtain ⟨b, hb⟩ := exists_mem_of_ne_nil batch hne
          obtain ⟨hb₁, hb₂, hb₃⟩ := hbatch b hb
          exact length_pos_of_mem
            (mem_filter.mpr ⟨mem_ahead.mpr ⟨hb₁, hb₂⟩, by simpa using hb₃⟩)
        have := ahead_split key items (Int.le_of_lt hcc)
        omega
      obtain ⟨out, hout, houtMem, hiff⟩ := ih (c := c') (by omega)
      have hisEmpty : batch.isEmpty = false := by simpa using hne
      refine ⟨batch ++ out, by rw [hisEmpty, hout]; rfl, ?_, ?_⟩
      · intro b hb
        rcases mem_append.mp hb with hb | hb
        · exact ⟨(hbatch b hb).1, (hbatch b hb).2.1⟩
        · exact ⟨(houtMem b hb).1, Int.lt_trans hcc (houtMem b hb).2⟩
      · rcases hcases with ⟨hfirst, hall, hwhole⟩ | ⟨hcut, b, hb, hcb, hbc, hmissed⟩
        · have hnext : Uncut key limit items c ↔ Uncut key limit items c' := by
            rcases hwhole with hle | hfull
            · exact ⟨fun _ => uncut_of_length_le (by omega), fun _ => uncut_of_length_le hle⟩
            · exact uncut_next (Int.le_of_lt hcc) hfirst hfull
          rw [hnext, ← hiff]
          constructor
          · intro h b hb hcb
            rcases mem_append.mp (h b hb (Int.lt_trans hcc hcb)) with hb' | hb'
            · exact absurd (hbatch b hb').2.2 (Int.not_le.mpr hcb)
            · exact hb'
          · intro h b hb hcb
            by_cases hbc : key b ≤ c'
            · exact mem_append_left _ (hall b hb hcb hbc)
            · exact mem_append_right _ (h b hb (Int.not_le.mp hbc))
        · constructor
          · intro h
            rcases mem_append.mp (h b hb hcb) with hb' | hb'
            · exact absurd hb' hmissed
            · exact absurd (houtMem b hb').2 (by omega)
          · exact fun h => absurd hcut (h 1 _)

end ContextDesk.Lib.Feed
