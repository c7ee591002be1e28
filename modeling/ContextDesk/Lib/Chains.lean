import Mathlib.Data.List.Nodup
import Mathlib.Logic.Function.Basic
import Mathlib.Logic.Relation

/-!
# Chains linked in both directions

`Links` is a link from each node to the older one it replaced and one to the newer one that replaced
it. `OneWay`: each of the two leads one way only, and to a node that is there. `WellLinked`: the two
also agree. A node put on top of a chain (`extend`) and a node taken out (`remove`) keep both. On
one-way links a climb to a head followed by a descent ends within as much fuel as there are nodes,
and visits what is below that head (`OneWay.expand_exact`). On well linked nodes that is the whole
chain (`below_head`, `WellLinked.heads_below`).
-/

open List Function

namespace ContextDesk.Lib

variable {α : Type}

structure Links (α : Type) where
  older : α → Option α
  newer : α → Option α

namespace Links

def Replaces (l : Links α) (b a : α) : Prop := l.older b = some a

/-- What a node replaced, directly or not, and the node itself. -/
def Below (l : Links α) : α → α → Prop := Relation.ReflTransGen l.Replaces

def SameChain (l : Links α) : α → α → Prop := Relation.EqvGen l.Replaces

/-- Where the climb from a node ends. -/
def Heads (l : Links α) (a head : α) : Prop :=
  Relation.ReflTransGen (fun x y => l.newer x = some y) a head ∧ l.newer head = none

structure OneWay (l : Links α) (nodes : List α) : Prop where
  ranked : ∃ rank : α → Nat, (∀ a b, l.older b = some a → rank a < rank b) ∧
    ∀ a b, l.newer a = some b → rank a < rank b
  older_mem : ∀ a b, l.older b = some a → a ∈ nodes
  newer_mem : ∀ a b, l.newer a = some b → b ∈ nodes

structure WellLinked (l : Links α) : Prop where
  agree : ∀ a b, l.newer a = some b ↔ l.older b = some a
  ranked : ∃ rank : α → Nat, ∀ a b, l.older b = some a → rank a < rank b

namespace WellLinked

variable {l : Links α}

theorem acyclic (h : l.WellLinked) (a : α) : ¬ Relation.TransGen l.Replaces a a := by
  obtain ⟨rank, hrank⟩ := h.ranked
  have hlt : ∀ b c, Relation.TransGen l.Replaces b c → rank c < rank b := by
    intro b c hbc
    induction hbc with
    | single hbc => exact hrank _ _ hbc
    | tail _ hbc ih => exact Nat.lt_trans (hrank _ _ hbc) ih
  exact fun haa => Nat.lt_irrefl _ (hlt a a haa)

theorem sameChain_of_below {a x : α} (h : l.Below a x) : l.SameChain a x := by
  induction h with
  | refl => exact .refl _
  | tail _ hbc ih => exact ih.trans _ _ _ (.rel _ _ hbc)

/-- Nothing in a chain is beside its head. -/
theorem below_head (h : l.WellLinked) {head x : α} (hhead : l.newer head = none)
    (hx : l.SameChain head x) : l.Below head x := by
  have hdown : ∀ a b, l.Replaces a b → l.Below head a → l.Below head b := fun a b hab ha =>
    ha.tail hab
  have hup : ∀ a b, l.Replaces b a → l.Below head a → l.Below head b := by
    intro a b hba ha
    have hnewer : l.newer a = some b := (h.agree a b).mpr hba
    rcases Relation.ReflTransGen.cases_tail ha with rfl | ⟨c, hc, hca⟩
    · rw [hhead] at hnewer
      cases hnewer
    · have hca' : l.newer a = some c := (h.agree a c).mpr hca
      rw [hca'] at hnewer
      cases hnewer
      exact hc
  have hboth : ∀ a b, l.SameChain a b → (l.Below head a ↔ l.Below head b) := by
    intro a b hab
    induction hab with
    | rel a b hab => exact ⟨hdown a b hab, hup b a hab⟩
    | refl a => exact Iff.rfl
    | symm a b _ ih => exact ih.symm
    | trans a b c _ _ ih ih' => exact ih.trans ih'
  exact (hboth head x hx).mp .refl

end WellLinked

/-! ## Walks -/

section Walks

variable [DecidableEq α]

/-- The head of a chain. -/
def climb (l : Links α) : Nat → α → Option α
  | 0, _ => none
  | fuel + 1, a =>
    match l.newer a with
    | none => some a
    | some b => climb l fuel b

/-- What is below a node, newest first, up to one that was seen; and what is seen then. -/
def descend (l : Links α) : Nat → List α → Option α → Option (List α × List α)
  | _, seen, none => some ([], seen)
  | 0, _, some _ => none
  | fuel + 1, seen, some a =>
    if a ∈ seen then some ([], seen)
    else do
      let (rest, seen) ← descend l fuel (a :: seen) (l.older a)
      some (a :: rest, seen)

/-- The chains of some nodes, each node once. -/
def expand (l : Links α) (fuel : Nat) : List α → List α → Option (List α)
  | _, [] => some []
  | seen, a :: starts => do
    let head ← climb l fuel a
    let (chain, seen) ← descend l fuel seen (some head)
    let rest ← expand l fuel seen starts
    some (chain ++ rest)

omit [DecidableEq α] in
theorem length_filter_lt {p q : α → Bool} {nodes : List α} {a : α}
    (himp : ∀ x, p x = true → q x = true) (ha : a ∈ nodes) (hq : q a = true)
    (hp : p a = false) : (nodes.filter p).length < (nodes.filter q).length := by
  have hfilter : nodes.filter p = (nodes.filter q).filter p := by
    rw [filter_filter]
    apply filter_congr
    intro x _
    cases hx : p x with
    | false => rfl
    | true => rw [himp x hx, Bool.and_self]
  rw [hfilter, length_filter_lt_length_iff_exists]
  exact ⟨a, mem_filter.mpr ⟨ha, hq⟩, by rw [hp]; exact Bool.false_ne_true⟩

variable {l : Links α} {nodes : List α}

omit [DecidableEq α] in
theorem eq_or_newer_of_climb {fuel : Nat} {a head : α} (h : l.climb fuel a = some head) :
    head = a ∨ ∃ b, l.newer b = some head := by
  induction fuel generalizing a with
  | zero => cases h
  | succ fuel ih =>
    unfold climb at h
    cases hnewer : l.newer a with
    | none =>
      rw [hnewer] at h
      exact Or.inl (Option.some.inj h).symm
    | some b =>
      rw [hnewer] at h
      rcases ih h with rfl | hb
      · exact Or.inr ⟨a, hnewer⟩
      · exact Or.inr hb

namespace OneWay

omit [DecidableEq α] in
theorem mono {nodes nodes' : List α} (h : l.OneWay nodes) (hsub : ∀ a ∈ nodes, a ∈ nodes') :
    l.OneWay nodes' :=
  ⟨h.ranked, fun a b hab => hsub a (h.older_mem a b hab),
    fun a b hab => hsub b (h.newer_mem a b hab)⟩

omit [DecidableEq α] in
theorem climb_ends (h : l.OneWay nodes) {fuel : Nat} (hfuel : nodes.length < fuel) (a : α) :
    ∃ head, l.climb fuel a = some head ∧ l.Heads a head := by
  obtain ⟨rank, -, hrank⟩ := h.ranked
  have hstep : ∀ fuel a, (nodes.filter fun x => rank a < rank x).length < fuel →
      ∃ head, l.climb fuel a = some head ∧ l.Heads a head := by
    intro fuel
    induction fuel with
    | zero => exact fun a hlt => absurd hlt (Nat.not_lt_zero _)
    | succ fuel ih =>
      intro a hlt
      unfold climb
      cases hnewer : l.newer a with
      | none => exact ⟨a, rfl, .refl, hnewer⟩
      | some b =>
        have hb : b ∈ nodes := h.newer_mem a b hnewer
        have hless : (nodes.filter fun x => rank b < rank x).length <
            (nodes.filter fun x => rank a < rank x).length := by
          refine length_filter_lt ?_ hb ?_ ?_
          · intro x hx
            have := hrank a b hnewer
            simp only [decide_eq_true_eq] at hx ⊢
            omega
          · simpa using hrank a b hnewer
          · simp
        obtain ⟨head, hclimb, hchain, hhead⟩ := ih b (by omega)
        exact ⟨head, hclimb, .head hnewer hchain, hhead⟩
  exact hstep fuel a (Nat.lt_of_le_of_lt (length_filter_le _ _) hfuel)

omit [DecidableEq α] in
theorem below_cases {a x : α} :
    l.Below a x ↔ x = a ∨ ∃ b, l.older a = some b ∧ l.Below b x := by
  rw [Below, Relation.ReflTransGen.cases_head_iff, eq_comm]
  rfl

/-- A descent visits what is below, less what was seen, where all is seen below what was seen. -/
theorem descend_exact (h : l.OneWay nodes) {fuel : Nat} (hfuel : nodes.length < fuel)
    {seen : List α} {a : α} (hseen : ∀ x y, l.Below a x → x ∈ seen → l.Below x y → y ∈ seen) :
    ∃ out seen', l.descend fuel seen (some a) = some (out, seen') ∧ out.Nodup ∧
      (∀ x, x ∈ out ↔ l.Below a x ∧ x ∉ seen) ∧ ∀ x, x ∈ seen' ↔ x ∈ out ∨ x ∈ seen := by
  obtain ⟨rank, hrank, -⟩ := h.ranked
  have hbelow : ∀ a x, l.Below a x → rank x ≤ rank a := by
    intro a x hx
    induction hx with
    | refl => exact Nat.le_refl _
    | tail _ hbc ih => exact Nat.le_trans (Nat.le_of_lt (hrank _ _ hbc)) ih
  have hstep : ∀ fuel seen a, (nodes.filter fun x => rank x < rank a).length < fuel →
      (∀ x y, l.Below a x → x ∈ seen → l.Below x y → y ∈ seen) →
      ∃ out seen', l.descend fuel seen (some a) = some (out, seen') ∧ out.Nodup ∧
        (∀ x, x ∈ out ↔ l.Below a x ∧ x ∉ seen) ∧ ∀ x, x ∈ seen' ↔ x ∈ out ∨ x ∈ seen := by
    intro fuel
    induction fuel with
    | zero => exact fun _ a hlt => absurd hlt (Nat.not_lt_zero _)
    | succ fuel ih =>
      intro seen a hlt hseen
      unfold descend
      by_cases has : a ∈ seen
      · refine ⟨[], seen, by rw [if_pos has], nodup_nil, fun x => ?_, by simp⟩
        constructor
        · exact fun hx => absurd hx not_mem_nil
        · exact fun hx => absurd (hseen a x .refl has hx.1) hx.2
      rw [if_neg has]
      cases holder : l.older a with
      | none =>
        refine ⟨[a], a :: seen, by cases fuel <;> rfl, nodup_singleton a, ?_, ?_⟩
        · intro x
          rw [below_cases, mem_singleton, holder]
          simp only [reduceCtorEq, false_and, exists_false, or_false]
          exact ⟨fun hx => ⟨hx, hx ▸ has⟩, fun hx => hx.1⟩
        · intro x
          rw [mem_cons, mem_singleton]
      | some b =>
        have hba := hrank b a holder
        have hless : (nodes.filter fun x => rank x < rank b).length <
            (nodes.filter fun x => rank x < rank a).length := by
          refine length_filter_lt ?_ (h.older_mem b a holder) ?_ ?_
          · intro x hx
            simp only [decide_eq_true_eq] at hx ⊢
            omega
          · simpa using hba
          · simp
        have hne : ∀ x, l.Below b x → x ≠ a := by
          rintro x hx rfl
          exact absurd (hbelow b x hx) (by omega)
        obtain ⟨out, seen', hout, hnodup, hmem, hseen'⟩ := ih (a :: seen) b (by omega) (by
          intro x y hx hxs hxy
          rcases mem_cons.mp hxs with hxa | hxs
          · exact absurd hxa (hne x hx)
          · exact mem_cons_of_mem _
              (hseen x y (below_cases.mpr (Or.inr ⟨b, holder, hx⟩)) hxs hxy))
        refine ⟨a :: out, seen', by rw [hout]; rfl, nodup_cons.mpr ⟨?_, hnodup⟩, ?_, ?_⟩
        · exact fun ha => hne a ((hmem a).mp ha).1 rfl
        · intro x
          rw [mem_cons, hmem, below_cases (a := a), holder, mem_cons]
          simp only [Option.some.injEq, exists_eq_left']
          constructor
          · rintro (rfl | ⟨hx, hxs⟩)
            · exact ⟨Or.inl rfl, has⟩
            · exact ⟨Or.inr hx, fun hs => hxs (Or.inr hs)⟩
          · rintro ⟨rfl | hx, hxs⟩
            · exact Or.inl rfl
            · exact Or.inr ⟨hx, fun hs => hs.elim (hne x hx) hxs⟩
        · intro x
          rw [hseen', mem_cons, mem_cons]
          tauto
  exact hstep fuel seen a (Nat.lt_of_le_of_lt (length_filter_le _ _) hfuel) hseen

/-- The walks end, and visit what is below the heads of the nodes they start from, each node
once. -/
theorem expand_exact (h : l.OneWay nodes) {fuel : Nat} (hfuel : nodes.length < fuel)
    {seen : List α} (hseen : ∀ x y, x ∈ seen → l.Below x y → y ∈ seen) (starts : List α) :
    ∃ out, l.expand fuel seen starts = some out ∧ out.Nodup ∧
      ∀ x, x ∈ out ↔ x ∉ seen ∧ ∃ a ∈ starts, ∃ head, l.Heads a head ∧ l.Below head x := by
  induction starts generalizing seen with
  | nil => exact ⟨[], rfl, nodup_nil, by simp⟩
  | cons a starts ih =>
    obtain ⟨head, hclimb, hhead⟩ := h.climb_ends hfuel a
    have honly : ∀ head', l.Heads a head' → head' = head := by
      have hdet : ∀ b, l.Heads b head → ∀ head', l.Heads b head' → head' = head := by
        rintro b ⟨hb, hnone⟩
        induction hb using Relation.ReflTransGen.head_induction_on with
        | refl =>
          rintro head' ⟨hb', -⟩
          rcases Relation.ReflTransGen.cases_head hb' with rfl | ⟨c, hc, -⟩
          · rfl
          · exact absurd (hnone.symm.trans hc) (Option.some_ne_none c).symm
        | head hbc _ ih =>
          rintro head' ⟨hb', hnone'⟩
          rcases Relation.ReflTransGen.cases_head hb' with rfl | ⟨c, hc, hb'⟩
          · exact absurd (hnone'.symm.trans hbc) (Option.some_ne_none _).symm
          · rw [hbc, Option.some.injEq] at hc
            exact ih head' ⟨hc ▸ hb', hnone'⟩
      exact hdet a hhead
    obtain ⟨chain, seen', hdescend, hnodup, hmem, hseen'⟩ :=
      h.descend_exact hfuel (a := head) fun x y _ hx hxy => hseen x y hx hxy
    obtain ⟨rest, hrest, hnodup', hmem'⟩ := @ih seen' (by
      intro x y hx hxy
      rw [hseen', hmem] at hx ⊢
      by_cases hy : y ∈ seen
      · exact Or.inr hy
      · rcases hx with hx | hx
        · exact Or.inl ⟨hx.1.trans hxy, hy⟩
        · exact absurd (hseen x y hx hxy) hy)
    refine ⟨chain ++ rest, ?_, ?_, ?_⟩
    · unfold expand
      simp only [hclimb, hdescend, hrest, Option.bind_eq_bind, Option.bind_some]
    · rw [nodup_append]
      refine ⟨hnodup, hnodup', ?_⟩
      rintro x hx y hy rfl
      exact ((hmem' x).mp hy).1 ((hseen' x).mpr (Or.inl hx))
    · intro x
      have hhere : (∃ head', l.Heads a head' ∧ l.Below head' x) ↔ l.Below head x :=
        ⟨fun ⟨head', hh, hx⟩ => honly head' hh ▸ hx, fun hx => ⟨head, hhead, hx⟩⟩
      rw [mem_append, hmem, hmem', hseen', hmem]
      simp only [mem_cons, exists_eq_or_imp, hhere]
      tauto

end OneWay

omit [DecidableEq α] in
theorem WellLinked.oneWay (h : l.WellLinked) (holder : ∀ a, l.older a ≠ none → a ∈ nodes)
    (hnewer : ∀ a, l.newer a ≠ none → a ∈ nodes) : l.OneWay nodes where
  ranked := by
    obtain ⟨rank, hrank⟩ := h.ranked
    exact ⟨rank, hrank, fun a b hab => hrank a b ((h.agree a b).mp hab)⟩
  older_mem a b hab := hnewer a (by
    rw [(h.agree a b).mpr hab]
    exact Option.some_ne_none b)
  newer_mem a b hab := holder b (by
    rw [(h.agree a b).mp hab]
    exact Option.some_ne_none a)

omit [DecidableEq α] in
theorem WellLinked.sameChain_of_heads (h : l.WellLinked) {a head : α} (hhead : l.Heads a head) :
    l.SameChain a head := by
  obtain ⟨hup, -⟩ := hhead
  induction hup with
  | refl => exact .refl _
  | tail _ hbc ih =>
    have hreplaces : l.Replaces _ _ := (h.agree _ _).mp hbc
    exact ih.trans _ _ _ (Relation.EqvGen.rel _ _ hreplaces).symm

omit [DecidableEq α] in
/-- What is below the head of a node is its chain. -/
theorem WellLinked.heads_below (h : l.WellLinked) (honeWay : l.OneWay nodes) {fuel : Nat}
    (hfuel : nodes.length < fuel) {a x : α} :
    (∃ head, l.Heads a head ∧ l.Below head x) ↔ l.SameChain a x := by
  constructor
  · rintro ⟨head, hhead, hx⟩
    exact (h.sameChain_of_heads hhead).trans _ _ _ (sameChain_of_below hx)
  · intro hax
    obtain ⟨head, -, hhead⟩ := honeWay.climb_ends hfuel a
    exact ⟨head, hhead, h.below_head hhead.2 ((h.sameChain_of_heads hhead).symm.trans _ _ _ hax)⟩

end Walks

/-! ## Changes -/

section Changes

variable [DecidableEq α]

/-- A new node put over the head of a chain. -/
def extend (l : Links α) (old new : α) : Links α where
  older := update l.older new (some old)
  newer := update l.newer old (some new)

/-- A node taken out, and the links to it. -/
def remove (l : Links α) (gone : α) : Links α where
  older a := if a = gone ∨ l.older a = some gone then none else l.older a
  newer a := if a = gone ∨ l.newer a = some gone then none else l.newer a

variable {l : Links α}

theorem replaces_extend {old new b a : α} (hb : l.older new = none) :
    (l.extend old new).Replaces b a ↔ (b = new ∧ a = old) ∨ l.Replaces b a := by
  change update l.older new (some old) b = some a ↔ _ ∨ l.older b = some a
  by_cases hbn : b = new
  · rw [hbn, update_self, Option.some.injEq, hb]
    simp [eq_comm]
  · rw [update_of_ne hbn]
    simp [hbn]

theorem WellLinked.extend (h : l.WellLinked) {old new : α} (hne : new ≠ old)
    (holder : l.older new = none) (hnewer : l.newer new = none) (hhead : l.newer old = none) :
    (l.extend old new).WellLinked where
  agree a b := by
    have hagree := h.agree a b
    change update l.newer old (some new) a = some b ↔ (l.extend old new).Replaces b a
    rw [replaces_extend holder]
    by_cases ha : a = old
    · rw [ha, update_self, Option.some.injEq]
      rw [ha, hhead] at hagree
      simp only [reduceCtorEq, false_iff] at hagree
      simp [Replaces, hagree, eq_comm]
    · rw [update_of_ne ha, hagree]
      simp [ha, Replaces]
  ranked := by
    obtain ⟨rank, hrank⟩ := h.ranked
    refine ⟨update rank new (rank old + 1), ?_⟩
    intro a b hab
    rcases (replaces_extend holder).mp hab with ⟨rfl, rfl⟩ | hold
    · rw [update_self, update_of_ne (Ne.symm hne)]
      exact Nat.lt_succ_self _
    · have hb : b ≠ new := by
        rintro rfl
        exact Option.some_ne_none a (hold.symm.trans holder)
      have ha : a ≠ new := by
        rintro rfl
        exact Option.some_ne_none b (((h.agree a b).mpr hold).symm.trans hnewer)
      rw [update_of_ne ha, update_of_ne hb]
      exact hrank a b hold

/-- A new node over any node, whatever came over that one before. -/
theorem OneWay.extend {nodes : List α} (h : l.OneWay nodes) {old new : α} (hold : old ∈ nodes)
    (hnew : new ∉ nodes) (holder : l.older new = none) (hnewer : l.newer new = none) :
    (l.extend old new).OneWay (new :: nodes) := by
  have hne : old ≠ new := fun e => hnew (e ▸ hold)
  have hup : ∀ a b, (l.extend old new).newer a = some b →
      (a = old ∧ b = new) ∨ (a ≠ old ∧ l.newer a = some b) := by
    intro a b hab
    change update l.newer old (some new) a = some b at hab
    by_cases ha : a = old
    · rw [ha, update_self, Option.some.injEq] at hab
      exact Or.inl ⟨ha, hab.symm⟩
    · rw [update_of_ne ha] at hab
      exact Or.inr ⟨ha, hab⟩
  refine ⟨?_, ?_, ?_⟩
  · obtain ⟨rank, hdown, hrise⟩ := h.ranked
    have hkeep : ∀ a, a ≠ new → update rank new (rank old + 1) a = rank a :=
      fun a ha => update_of_ne ha _ _
    refine ⟨update rank new (rank old + 1), ?_, ?_⟩
    · intro a b hab
      rcases (replaces_extend holder).mp hab with ⟨rfl, rfl⟩ | hlink
      · rw [update_self, hkeep _ hne]
        exact Nat.lt_succ_self _
      · have hb : b ≠ new := by
          rintro rfl
          exact Option.some_ne_none a (hlink.symm.trans holder)
        have ha : a ≠ new := fun e => hnew (e ▸ h.older_mem a b hlink)
        rw [hkeep a ha, hkeep b hb]
        exact hdown a b hlink
    · intro a b hab
      rcases hup a b hab with ⟨rfl, rfl⟩ | ⟨-, hlink⟩
      · rw [update_self, hkeep _ hne]
        exact Nat.lt_succ_self _
      · have ha : a ≠ new := by
          rintro rfl
          exact Option.some_ne_none b (hlink.symm.trans hnewer)
        have hb : b ≠ new := fun e => hnew (e ▸ h.newer_mem a b hlink)
        rw [hkeep a ha, hkeep b hb]
        exact hrise a b hlink
  · intro a b hab
    rcases (replaces_extend holder).mp hab with ⟨-, rfl⟩ | hab
    · exact mem_cons_of_mem _ hold
    · exact mem_cons_of_mem _ (h.older_mem a b hab)
  · intro a b hab
    rcases hup a b hab with ⟨-, rfl⟩ | ⟨-, hab⟩
    · exact mem_cons_self
    · exact mem_cons_of_mem _ (h.newer_mem a b hab)

/-- With the new node seen as the one it replaced, an extended chain is the chain before. -/
theorem sameChain_extend {old new a b : α} (holder : l.older new = none)
    (hnewer : ∀ b, l.older b ≠ some new) (h : (l.extend old new).SameChain a b) :
    l.SameChain (if a = new then old else a) (if b = new then old else b) := by
  induction h with
  | rel b a hba =>
    rcases (replaces_extend holder).mp hba with ⟨rfl, rfl⟩ | hold
    · rw [if_pos rfl]
      split <;> exact .refl _
    · have hb : b ≠ new := by
        rintro rfl
        exact Option.some_ne_none a (hold.symm.trans holder)
      have ha : a ≠ new := by
        rintro rfl
        exact hnewer b hold
      rw [if_neg hb, if_neg ha]
      exact .rel _ _ hold
  | refl a => exact .refl _
  | symm a b _ ih => exact ih.symm _ _
  | trans a b c _ _ ih ih' => exact ih.trans _ _ _ ih'

theorem replaces_remove {gone b a : α} :
    (l.remove gone).Replaces b a ↔ b ≠ gone ∧ a ≠ gone ∧ l.Replaces b a := by
  unfold Replaces remove
  simp only
  split
  · rename_i hgone
    constructor
    · intro e
      cases e
    · rintro ⟨hb, ha, hab⟩
      rcases hgone with hgone | hgone
      · exact absurd hgone hb
      · rw [hgone, Option.some.injEq] at hab
        exact absurd hab.symm ha
  · rename_i hgone
    rw [not_or] at hgone
    constructor
    · intro hab
      refine ⟨hgone.1, ?_, hab⟩
      rintro rfl
      exact hgone.2 hab
    · exact fun hab => hab.2.2

theorem WellLinked.remove (h : l.WellLinked) (gone : α) : (l.remove gone).WellLinked where
  agree a b := by
    change (if a = gone ∨ l.newer a = some gone then none else l.newer a) = some b ↔
      (l.remove gone).Replaces b a
    rw [replaces_remove]
    have hagree := h.agree a b
    split
    · rename_i hgone
      constructor
      · intro e
        cases e
      · rintro ⟨hb, ha, hab⟩
        rcases hgone with hgone | hgone
        · exact absurd hgone ha
        · rw [Replaces, ← hagree, hgone, Option.some.injEq] at hab
          exact absurd hab.symm hb
    · rename_i hgone
      rw [not_or] at hgone
      rw [Replaces, ← hagree]
      constructor
      · intro hab
        refine ⟨?_, hgone.1, hab⟩
        rintro rfl
        exact hgone.2 hab
      · exact fun hab => hab.2.2
  ranked := by
    obtain ⟨rank, hrank⟩ := h.ranked
    exact ⟨rank, fun a b hab => hrank a b (replaces_remove.mp hab).2.2⟩

theorem OneWay.remove {nodes : List α} (h : l.OneWay nodes) (gone : α) :
    (l.remove gone).OneWay (nodes.filter (· ≠ gone)) := by
  have hup : ∀ a b, (l.remove gone).newer a = some b → b ≠ gone ∧ l.newer a = some b := by
    intro a b hab
    change (if a = gone ∨ l.newer a = some gone then none else l.newer a) = some b at hab
    split at hab
    · cases hab
    · rename_i hgone
      refine ⟨?_, hab⟩
      rintro rfl
      exact hgone (Or.inr hab)
  refine ⟨?_, ?_, ?_⟩
  · obtain ⟨rank, hdown, hrise⟩ := h.ranked
    exact ⟨rank, fun a b hab => hdown a b (replaces_remove.mp hab).2.2,
      fun a b hab => hrise a b (hup a b hab).2⟩
  · intro a b hab
    obtain ⟨-, ha, hab⟩ := replaces_remove.mp hab
    exact mem_filter.mpr ⟨h.older_mem a b hab, decide_eq_true ha⟩
  · intro a b hab
    obtain ⟨hb, hab⟩ := hup a b hab
    exact mem_filter.mpr ⟨h.newer_mem a b hab, decide_eq_true hb⟩

theorem sameChain_remove {gone a b : α} (h : (l.remove gone).SameChain a b) :
    l.SameChain a b := by
  induction h with
  | rel b a hba => exact .rel _ _ (replaces_remove.mp hba).2.2
  | refl a => exact .refl _
  | symm a b _ ih => exact ih.symm _ _
  | trans a b c _ _ ih ih' => exact ih.trans _ _ _ ih'

end Changes

end Links

end ContextDesk.Lib
