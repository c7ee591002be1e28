import Mathlib

/-!
# Delimited encodings

An encoding is delimited when what follows an encoded value does not matter for reading it back
(`Delimited`). Words of a fixed width are (`leBytes_delimited`, `beBytes_delimited`), and so are
bytes behind their length (`Delimited.sized`), a list behind the number of its elements
(`Delimited.counted`), one value after another (`Delimited.pair`), a value behind its tag
(`Delimited.tagged`) and bytes before one that they do not have (`Delimited.terminated`). A
delimited encoding tells its values apart (`Delimited.inj`), and so do its values one after the
other (`Delimited.concat_inj`).
-/

namespace ContextDesk.Lib

open List

variable {α β : Type}

/-- The first `width` bytes of a number, the smallest first. -/
def leBytes : Nat → Nat → List UInt8
  | 0, _ => []
  | width + 1, n => UInt8.ofNat n :: leBytes width (n / 256)

/-- The first `width` bytes of a number, the largest first. -/
def beBytes (width n : Nat) : List UInt8 := (leBytes width n).reverse

theorem length_leBytes (width n : Nat) : (leBytes width n).length = width := by
  induction width generalizing n with
  | zero => rfl
  | succ width ih => rw [leBytes, length_cons, ih]

theorem leBytes_inj {width n m : Nat} (hn : n < 256 ^ width) (hm : m < 256 ^ width)
    (h : leBytes width n = leBytes width m) : n = m := by
  induction width generalizing n m with
  | zero =>
    rw [pow_zero] at hn hm
    omega
  | succ width ih =>
    rw [leBytes, leBytes, cons.injEq] at h
    have hlow : n % 256 = m % 256 := by simpa using congrArg UInt8.toNat h.1
    have hhigh : n / 256 = m / 256 := by
      refine ih ?_ ?_ h.2
      · rw [pow_succ] at hn
        omega
      · rw [pow_succ] at hm
        omega
    omega

/-- An encoding of the values in `P` that can be read back with anything behind it. -/
def Delimited (P : α → Prop) (enc : α → List UInt8) : Prop :=
  ∀ ⦃a b : α⦄ ⦃x y : List UInt8⦄, P a → P b → enc a ++ x = enc b ++ y → a = b ∧ x = y

variable {P : α → Prop} {enc : α → List UInt8}

theorem Delimited.inj (h : Delimited P enc) {a b : α} (ha : P a) (hb : P b) (heq : enc a = enc b) :
    a = b :=
  (h ha hb (congrArg (· ++ []) heq)).1

/-- Values of one width. -/
theorem Delimited.of_width {width : Nat} (hwidth : ∀ a, (enc a).length = width)
    (hinj : ∀ a b, P a → P b → enc a = enc b → a = b) : Delimited P enc := by
  intro a b x y ha hb h
  obtain ⟨hab, hxy⟩ := append_inj h (by rw [hwidth, hwidth])
  exact ⟨hinj a b ha hb hab, hxy⟩

theorem leBytes_delimited (width : Nat) : Delimited (· < 256 ^ width) (leBytes width) :=
  .of_width (length_leBytes width) fun _ _ hn hm => leBytes_inj hn hm

theorem beBytes_delimited (width : Nat) : Delimited (· < 256 ^ width) (beBytes width) := by
  have hwidth : ∀ n, (beBytes width n).length = width := by
    intro n
    rw [beBytes, length_reverse, length_leBytes]
  exact .of_width hwidth fun n m hn hm h => leBytes_inj hn hm (reverse_injective h)

/-- The values of another type, through an injection. -/
theorem Delimited.comap {Q : β → Prop} (h : Delimited P enc) {f : β → α} (hP : ∀ b, Q b → P (f b))
    (hf : ∀ b c, Q b → Q c → f b = f c → b = c) : Delimited Q fun b => enc (f b) := by
  intro b c x y hb hc heq
  obtain ⟨hbc, hxy⟩ := h (hP b hb) (hP c hc) heq
  exact ⟨hf b c hb hc hbc, hxy⟩

theorem Delimited.pair {Q : β → Prop} {enc' : β → List UInt8} (h : Delimited P enc)
    (h' : Delimited Q enc') :
    Delimited (fun p : α × β => P p.1 ∧ Q p.2) fun p => enc p.1 ++ enc' p.2 := by
  rintro ⟨a, b⟩ ⟨a', b'⟩ x y ⟨ha, hb⟩ ⟨ha', hb'⟩ heq
  rw [append_assoc, append_assoc] at heq
  obtain ⟨rfl, hrest⟩ := h ha ha' heq
  obtain ⟨rfl, hxy⟩ := h' hb hb' hrest
  exact ⟨rfl, hxy⟩

/-- A constant before every value. -/
theorem Delimited.header (h : Delimited P enc) (bytes : List UInt8) :
    Delimited P fun a => bytes ++ enc a := by
  intro a b x y ha hb heq
  rw [append_assoc, append_assoc] at heq
  exact h ha hb (append_cancel_left heq)

/-- Lists of one length. -/
theorem Delimited.flatMap (h : Delimited P enc) {l l' : List α} {x y : List UInt8}
    (hlen : l.length = l'.length) (hl : ∀ a ∈ l, P a) (hl' : ∀ a ∈ l', P a)
    (heq : l.flatMap enc ++ x = l'.flatMap enc ++ y) : l = l' ∧ x = y := by
  induction l generalizing l' with
  | nil =>
    obtain rfl := length_eq_zero_iff.mp hlen.symm
    exact ⟨rfl, heq⟩
  | cons a l ih =>
    obtain _ | ⟨b, l'⟩ := l'
    · cases hlen
    · rw [flatMap_cons, flatMap_cons, append_assoc, append_assoc] at heq
      obtain ⟨rfl, hrest⟩ := h (hl a mem_cons_self) (hl' b mem_cons_self) heq
      obtain ⟨rfl, hxy⟩ := ih (Nat.succ.inj hlen) (fun c hc => hl c (mem_cons_of_mem _ hc))
        (fun c hc => hl' c (mem_cons_of_mem _ hc)) hrest
      exact ⟨rfl, hxy⟩

/-- A list behind the number of its elements. -/
theorem Delimited.counted (h : Delimited P enc) {bound : Nat} {word : Nat → List UInt8}
    (hword : Delimited (· < bound) word) :
    Delimited (fun l : List α => l.length < bound ∧ ∀ a ∈ l, P a)
      fun l => word l.length ++ l.flatMap enc := by
  rintro l l' x y ⟨hlen, hl⟩ ⟨hlen', hl'⟩ heq
  rw [append_assoc, append_assoc] at heq
  obtain ⟨hsame, heq⟩ := hword hlen hlen' heq
  exact h.flatMap hsame hl hl' heq

/-- Bytes behind their length. -/
def sized (word : Nat → List UInt8) (bytes : List UInt8) : List UInt8 := word bytes.length ++ bytes

theorem Delimited.sized {bound : Nat} {word : Nat → List UInt8}
    (hword : Delimited (· < bound) word) :
    Delimited (fun bytes : List UInt8 => bytes.length < bound) (Lib.sized word) := by
  intro a b x y ha hb heq
  rw [Lib.sized, Lib.sized, append_assoc, append_assoc] at heq
  obtain ⟨hsame, heq⟩ := hword ha hb heq
  exact append_inj heq hsame

/-- A tag, then what the tag announces. -/
theorem Delimited.tagged {tag : α → UInt8} (h : ∀ t, Delimited (fun a => P a ∧ tag a = t) enc) :
    Delimited P fun a => tag a :: enc a := by
  intro a b x y ha hb heq
  obtain ⟨htag, hrest⟩ := cons.inj heq
  exact h (tag b) ⟨ha, htag⟩ ⟨hb, rfl⟩ hrest

/-- Bytes before a byte that they do not have. -/
def terminated (stop : UInt8) (bytes : List UInt8) : List UInt8 := bytes ++ [stop]

theorem Delimited.terminated (stop : UInt8) :
    Delimited (fun bytes : List UInt8 => stop ∉ bytes) (Lib.terminated stop) := by
  intro a b x y ha hb heq
  rw [Lib.terminated, Lib.terminated, append_assoc, append_assoc] at heq
  induction a generalizing b with
  | nil =>
    cases b with
    | nil => exact ⟨rfl, (cons.inj heq).2⟩
    | cons c b => exact absurd (by rw [(cons.inj heq).1]; exact mem_cons_self) hb
  | cons c a ih =>
    cases b with
    | nil => exact absurd (by rw [← (cons.inj heq).1]; exact mem_cons_self) ha
    | cons d b =>
      obtain ⟨rfl, hrest⟩ := cons.inj heq
      obtain ⟨rfl, hxy⟩ := ih (fun h => ha (mem_cons_of_mem c h))
        (fun h => hb (mem_cons_of_mem c h)) hrest
      exact ⟨rfl, hxy⟩

/-- A list without its number of elements, when no element is encoded by nothing. -/
theorem Delimited.concat_inj (h : Delimited P enc) (hne : ∀ a, enc a ≠ []) {l l' : List α}
    (hl : ∀ a ∈ l, P a) (hl' : ∀ a ∈ l', P a) (heq : l.flatMap enc = l'.flatMap enc) : l = l' := by
  induction l generalizing l' with
  | nil =>
    cases l' with
    | nil => rfl
    | cons b l' =>
      rw [flatMap_nil, flatMap_cons] at heq
      exact absurd (append_eq_nil_iff.mp heq.symm).1 (hne b)
  | cons a l ih =>
    cases l' with
    | nil =>
      rw [flatMap_nil, flatMap_cons] at heq
      exact absurd (append_eq_nil_iff.mp heq).1 (hne a)
    | cons b l' =>
      rw [flatMap_cons, flatMap_cons] at heq
      obtain ⟨rfl, hrest⟩ := h (hl a mem_cons_self) (hl' b mem_cons_self) heq
      rw [ih (fun c hc => hl c (mem_cons_of_mem a hc))
        (fun c hc => hl' c (mem_cons_of_mem a hc)) hrest]

end ContextDesk.Lib
