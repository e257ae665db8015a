import Mathlib.Data.Nat.Digits.Lemmas
import Mathlib.Order.Monotone.Basic
import Mathlib.Data.List.TakeWhile

/-!
# The order of byte strings

Byte strings compare lexicographically, a proper prefix first: Go's `bytes.Compare` and string
comparison, and the order leveldb keeps its keys in. On `List` this is `<`. An encoding whose
output sorts as the numbers it encodes rests on a few facts about that order, stated here over
any linear order:

* a common prefix does not change it (`append_lt_append_left_iff`), and neither does a map that
  is strictly monotone on the letters used (`map_lt_map_iff`);
* on strings of one length of digits, most significant first, it is the order of their values
  (`lt_iff_ofDigits_reverse_lt`); the fixed-width digits of numbers (`beDigits`) are such strings;
* of two strings padded in front with the least letter, the one padded more is below
  (`replicate_append_lt_iff_of_lt`); with the greatest letter, it is above
  (`replicate_append_lt_iff_of_gt`). `replicate_append_dropWhile` splits a string so;
* writing each digit as two digits of a smaller base keeps the order (`splitDigits_lt_iff`).

The bytes of a string of ASCII characters are its characters (`toUTF8_ofList_of_ascii`), so on
such strings the order of characters is the order of bytes.
-/

namespace ByteOrder

section LTMap

variable {α : Type*} [LT α]

theorem append_lt_append_left_iff [Std.Irrefl (α := α) (· < ·)] (p : List α) {l l' : List α} :
    p ++ l < p ++ l' ↔ l < l' := by
  induction p with
  | nil => exact Iff.rfl
  | cons a p ih =>
    rw [List.cons_append, List.cons_append, List.cons_lt_cons_iff]
    simp only [Std.Irrefl.irrefl a, false_or, true_and]
    exact ih

/-- A map that keeps the order and the equality of the letters used keeps the order of strings. -/
theorem map_lt_map_iff {β : Type*} [LT β] {f : α → β} {s : Set α}
    (hlt : ∀ x ∈ s, ∀ y ∈ s, f x < f y ↔ x < y) (heq : ∀ x ∈ s, ∀ y ∈ s, f x = f y ↔ x = y) :
    ∀ {l l' : List α}, (∀ x ∈ l, x ∈ s) → (∀ x ∈ l', x ∈ s) → (l.map f < l'.map f ↔ l < l')
  | [], [], _, _ => iff_of_false (List.not_lt_nil _) (List.not_lt_nil _)
  | [], _ :: _, _, _ => iff_of_true (List.nil_lt_cons _ _) (List.nil_lt_cons _ _)
  | _ :: _, [], _, _ => iff_of_false (List.not_lt_nil _) (List.not_lt_nil _)
  | a :: l, b :: l', hl, hl' => by
    have ha : a ∈ s := hl a List.mem_cons_self
    have hb : b ∈ s := hl' b List.mem_cons_self
    have ih := map_lt_map_iff hlt heq (fun x hx => hl x (List.mem_cons_of_mem a hx))
      (fun x hx => hl' x (List.mem_cons_of_mem b hx))
    rw [List.map_cons, List.map_cons, List.cons_lt_cons_iff, List.cons_lt_cons_iff, ih,
      hlt a ha b hb, heq a ha b hb]

/-- Bytes order as their values. -/
theorem map_toNat_lt_map_toNat_iff {l l' : List UInt8} :
    l.map UInt8.toNat < l'.map UInt8.toNat ↔ l < l' :=
  map_lt_map_iff (s := Set.univ) (fun _ _ _ _ => UInt8.lt_iff_toNat_lt.symm)
    (fun _ _ _ _ => UInt8.toNat_inj) (fun _ _ => trivial) (fun _ _ => trivial)

end LTMap

section Lex

variable {α : Type*} [LinearOrder α]

omit [LinearOrder α] in
/-- Padding of `j` letters split at `i ≤ j`. -/
theorem replicate_append_split (c : α) {i j : ℕ} (h : i ≤ j) (r : List α) :
    List.replicate j c ++ r = List.replicate i c ++ (List.replicate (j - i) c ++ r) := by
  rw [← List.append_assoc, ← List.replicate_add, Nat.add_sub_cancel' h]

/-- Of two strings of one length padded in front with the least letter `c`, the one padded more
is below. -/
theorem replicate_append_lt_iff_of_lt {c : α} {i j : ℕ} {r r' : List α}
    (hr : ∀ x ∈ r.head?, c < x) (hr' : ∀ x ∈ r'.head?, c < x)
    (hlen : i + r.length = j + r'.length) :
    List.replicate i c ++ r < List.replicate j c ++ r' ↔ j < i ∨ i = j ∧ r < r' := by
  rcases lt_trichotomy i j with hij | rfl | hji
  · obtain ⟨x, t, rfl⟩ : ∃ x t, r = x :: t := List.exists_cons_of_length_pos (by omega)
    have hx : c < x := hr x rfl
    obtain ⟨k, hk⟩ : ∃ k, j - i = k + 1 := ⟨j - i - 1, by omega⟩
    rw [replicate_append_split c hij.le, append_lt_append_left_iff, hk, List.replicate_succ,
      List.cons_append, List.cons_lt_cons_iff]
    refine iff_of_false ?_ (by omega)
    rintro (hlt | ⟨rfl, -⟩)
    · exact lt_asymm hx hlt
    · exact lt_irrefl x hx
  · rw [append_lt_append_left_iff]
    simp only [lt_irrefl, false_or, true_and]
  · obtain ⟨y, t', rfl⟩ : ∃ y t', r' = y :: t' := List.exists_cons_of_length_pos (by omega)
    obtain ⟨k, hk⟩ : ∃ k, i - j = k + 1 := ⟨i - j - 1, by omega⟩
    rw [replicate_append_split c hji.le, append_lt_append_left_iff, hk, List.replicate_succ,
      List.cons_append, List.cons_lt_cons_iff]
    exact iff_of_true (Or.inl (hr' y rfl)) (Or.inl hji)

/-- Of two strings padded in front with the greatest letter `c`, the one padded more is above. -/
theorem replicate_append_lt_iff_of_gt {c : α} {i j : ℕ} {r r' : List α}
    (hr : ∀ x ∈ r.head?, x < c) (hr' : ∀ x ∈ r'.head?, x < c) :
    List.replicate i c ++ r < List.replicate j c ++ r' ↔ i < j ∨ i = j ∧ r < r' := by
  rcases lt_trichotomy i j with hij | rfl | hji
  · obtain ⟨k, hk⟩ : ∃ k, j - i = k + 1 := ⟨j - i - 1, by omega⟩
    rw [replicate_append_split c hij.le, append_lt_append_left_iff, hk, List.replicate_succ,
      List.cons_append]
    refine iff_of_true ?_ (Or.inl hij)
    cases r with
    | nil => exact List.nil_lt_cons _ _
    | cons x t => exact List.cons_lt_cons_iff.2 (Or.inl (hr x rfl))
  · rw [append_lt_append_left_iff]
    simp only [lt_irrefl, false_or, true_and]
  · obtain ⟨k, hk⟩ : ∃ k, i - j = k + 1 := ⟨i - j - 1, by omega⟩
    rw [replicate_append_split c hji.le, append_lt_append_left_iff, hk, List.replicate_succ,
      List.cons_append]
    refine iff_of_false ?_ (by omega)
    cases r' with
    | nil => exact List.not_lt_nil _
    | cons y t' =>
      rw [List.cons_lt_cons_iff]
      rintro (hlt | ⟨heq, -⟩)
      · exact lt_asymm (hr' y rfl) hlt
      · exact (hr' y rfl).ne heq.symm

end Lex

section DropWhile

variable {α : Type*} [DecidableEq α]

/-- A string is its leading run of `c`, then the rest. -/
theorem replicate_append_dropWhile (c : α) (l : List α) :
    List.replicate (l.length - (l.dropWhile (· = c)).length) c ++ l.dropWhile (· = c) = l := by
  have hsplit := List.takeWhile_append_dropWhile (p := (· = c)) (l := l)
  have htake : l.takeWhile (· = c) =
      List.replicate (l.length - (l.dropWhile (· = c)).length) c := by
    rw [List.eq_replicate_iff]
    constructor
    · have hlen := congrArg List.length hsplit
      rw [List.length_append] at hlen
      omega
    · intro b hb
      simpa using List.mem_takeWhile_imp hb
  rw [← htake]
  exact hsplit

omit [DecidableEq α] in
/-- The run ends at the first letter the negated test picks. -/
theorem dropWhile_eq_drop_findIdx {p q : α → Bool} (hq : ∀ x, q x = !p x) :
    ∀ l : List α, l.dropWhile p = l.drop (l.findIdx q)
  | [] => rfl
  | x :: t => by
    rw [List.dropWhile_cons, List.findIdx_cons, hq x]
    cases p x with
    | true => exact dropWhile_eq_drop_findIdx hq t
    | false => rfl

/-- The rest does not start with `c`. -/
theorem head_dropWhile_ne (c : α) (l : List α) : ∀ x ∈ (l.dropWhile (· = c)).head?, x ≠ c := by
  intro x hx
  have hne : l.dropWhile (· = c) ≠ [] := fun h => by simp [h] at hx
  have hhead := List.head_dropWhile_not (· = c) hne
  rw [List.head?_eq_some_head hne, Option.mem_some_iff] at hx
  rw [← hx]
  simpa using hhead

end DropWhile

section Digits

theorem ofDigits_reverse_cons (b a : ℕ) (l : List ℕ) :
    Nat.ofDigits b (a :: l).reverse = Nat.ofDigits b l.reverse + b ^ l.length * a := by
  rw [List.reverse_cons, Nat.ofDigits_append, List.length_reverse, Nat.ofDigits_singleton]

theorem ofDigits_reverse_lt {b : ℕ} (hb : 1 < b) {l : List ℕ} (hl : ∀ x ∈ l, x < b) :
    Nat.ofDigits b l.reverse < b ^ l.length := by
  have h := Nat.ofDigits_lt_base_pow_length hb (fun x hx => hl x (List.mem_reverse.1 hx))
  rwa [List.length_reverse] at h

/-- A higher leading digit outweighs whatever follows it. -/
theorem add_mul_lt_add_mul {v v' p a c : ℕ} (hv : v < p) (h : a < c) : v + p * a < v' + p * c :=
  calc v + p * a < p + p * a := Nat.add_lt_add_right hv _
    _ = p * (a + 1) := by ring
    _ ≤ p * c := Nat.mul_le_mul_left p h
    _ ≤ v' + p * c := Nat.le_add_left _ _

/-- On digit strings of one length, most significant first, the order is that of their values. -/
theorem lt_iff_ofDigits_reverse_lt {b : ℕ} (hb : 1 < b) :
    ∀ {l l' : List ℕ}, l.length = l'.length → (∀ x ∈ l, x < b) → (∀ x ∈ l', x < b) →
      (l < l' ↔ Nat.ofDigits b l.reverse < Nat.ofDigits b l'.reverse)
  | [], [], _, _, _ => iff_of_false (List.not_lt_nil _) (lt_irrefl 0)
  | [], _ :: _, hlen, _, _ => absurd hlen (by simp)
  | _ :: _, [], hlen, _, _ => absurd hlen (by simp)
  | a :: l, c :: l', hlen, hl, hl' => by
    have hlen' : l.length = l'.length := by simpa using hlen
    have htail : ∀ x ∈ l, x < b := fun x hx => hl x (List.mem_cons_of_mem a hx)
    have htail' : ∀ x ∈ l', x < b := fun x hx => hl' x (List.mem_cons_of_mem c hx)
    have hv := ofDigits_reverse_lt hb htail
    have hv' := ofDigits_reverse_lt hb htail'
    rw [← hlen'] at hv'
    rw [List.cons_lt_cons_iff, ofDigits_reverse_cons, ofDigits_reverse_cons, ← hlen',
      lt_iff_ofDigits_reverse_lt hb hlen' htail htail']
    rcases lt_trichotomy a c with hac | rfl | hca
    · exact iff_of_true (Or.inl hac) (add_mul_lt_add_mul hv hac)
    · simp only [lt_irrefl, false_or, true_and, Nat.add_lt_add_iff_right]
    · refine iff_of_false ?_ (not_lt.2 (add_mul_lt_add_mul hv' hca).le)
      rintro (hlt | ⟨rfl, -⟩)
      · exact lt_asymm hca hlt
      · exact lt_irrefl a hca

/-- The `w` digits of `n` in base `b`, most significant first: those of `n % b ^ w`. -/
def beDigits (b w n : ℕ) : List ℕ := (List.range w).map fun r => n / b ^ (w - 1 - r) % b

theorem beDigits_succ (b w n : ℕ) : beDigits b (w + 1) n = n / b ^ w % b :: beDigits b w n := by
  rw [beDigits, List.range_succ_eq_map, List.map_cons, List.map_map, beDigits]
  congr 1
  apply List.map_congr_left
  intro r _
  simp only [Function.comp_apply, Nat.succ_eq_add_one]
  congr 3
  omega

theorem length_beDigits (b w n : ℕ) : (beDigits b w n).length = w := by
  rw [beDigits, List.length_map, List.length_range]

theorem beDigits_lt {b : ℕ} (hb : 0 < b) (w n : ℕ) : ∀ x ∈ beDigits b w n, x < b := by
  intro x hx
  obtain ⟨r, -, rfl⟩ := List.mem_map.1 hx
  exact Nat.mod_lt _ hb

theorem ofDigits_reverse_beDigits (b w n : ℕ) :
    Nat.ofDigits b (beDigits b w n).reverse = n % b ^ w := by
  induction w with
  | zero => simp [beDigits, Nat.mod_one]
  | succ w ih =>
    rw [beDigits_succ, ofDigits_reverse_cons, ih, length_beDigits, Nat.mod_pow_succ]

/-- Fixed-width digits order as the numbers they write. -/
theorem beDigits_lt_beDigits_iff {b w n m : ℕ} (hb : 1 < b) (hn : n < b ^ w) (hm : m < b ^ w) :
    beDigits b w n < beDigits b w m ↔ n < m := by
  rw [lt_iff_ofDigits_reverse_lt hb (by rw [length_beDigits, length_beDigits])
    (beDigits_lt (by omega) w n) (beDigits_lt (by omega) w m), ofDigits_reverse_beDigits,
    ofDigits_reverse_beDigits, Nat.mod_eq_of_lt hn, Nat.mod_eq_of_lt hm]

theorem ofDigits_replicate_zero (b k : ℕ) : Nat.ofDigits b (List.replicate k 0) = 0 := by
  induction k with
  | zero => rfl
  | succ k ih => rw [List.replicate_succ, Nat.ofDigits_cons, ih, mul_zero, add_zero]

/-- A run of top digits is one below a power of the base. -/
theorem ofDigits_replicate_top {b c : ℕ} (hc : c + 1 = b) (k : ℕ) :
    Nat.ofDigits b (List.replicate k c) = b ^ k - 1 := by
  induction k with
  | zero => rfl
  | succ k ih =>
    have hle : b ≤ b * b ^ k := Nat.le_mul_of_pos_right b (Nat.pow_pos (by omega))
    rw [List.replicate_succ, Nat.ofDigits_cons, ih, pow_succ]
    calc c + b * (b ^ k - 1) = c + (b * b ^ k - b) := by rw [Nat.mul_sub, mul_one]
      _ = b ^ k * b - 1 := by rw [mul_comm (b ^ k)]; omega

/-- The fixed-width digits of a number are its leading run of `c`, then the rest. -/
theorem beDigits_eq_replicate_append (c b w n : ℕ) :
    beDigits b w n = List.replicate (w - ((beDigits b w n).dropWhile (· = c)).length) c ++
      (beDigits b w n).dropWhile (· = c) := by
  have h := replicate_append_dropWhile c (beDigits b w n)
  rw [length_beDigits] at h
  exact h.symm

theorem length_dropWhile_beDigits_le (c b w n : ℕ) :
    ((beDigits b w n).dropWhile (· = c)).length ≤ w :=
  (List.length_dropWhile_le _ _).trans (length_beDigits b w n).le

/-- Leading zeros add nothing to the value. -/
theorem ofDigits_reverse_dropWhile_zero (b w n : ℕ) :
    Nat.ofDigits b ((beDigits b w n).dropWhile (· = 0)).reverse = n % b ^ w := by
  have h := congrArg (fun l => Nat.ofDigits b l.reverse) (beDigits_eq_replicate_append 0 b w n)
  simp only [List.reverse_append, List.reverse_replicate, Nat.ofDigits_append,
    ofDigits_replicate_zero, mul_zero, add_zero, ofDigits_reverse_beDigits] at h
  exact h.symm

/-- A number is its digits after the leading run of the top digit `c`, under that run. -/
theorem ofDigits_reverse_dropWhile_top {b c : ℕ} (hc : c + 1 = b) (w n : ℕ) :
    Nat.ofDigits b ((beDigits b w n).dropWhile (· = c)).reverse +
        b ^ ((beDigits b w n).dropWhile (· = c)).length *
          (b ^ (w - ((beDigits b w n).dropWhile (· = c)).length) - 1) = n % b ^ w := by
  have h := congrArg (fun l => Nat.ofDigits b l.reverse) (beDigits_eq_replicate_append c b w n)
  simp only [List.reverse_append, List.reverse_replicate, Nat.ofDigits_append,
    ofDigits_replicate_top hc, List.length_reverse, ofDigits_reverse_beDigits] at h
  exact h.symm

/-- Numbers below `b ^ w` order as their digits after the leading zeros: by how many digits are
left, then by the digits. -/
theorem lt_iff_dropWhile_zero {b w n m : ℕ} (hb : 1 < b) (hn : n < b ^ w) (hm : m < b ^ w) :
    n < m ↔ ((beDigits b w n).dropWhile (· = 0)).length <
        ((beDigits b w m).dropWhile (· = 0)).length ∨
      ((beDigits b w n).dropWhile (· = 0)).length = ((beDigits b w m).dropWhile (· = 0)).length ∧
        (beDigits b w n).dropWhile (· = 0) < (beDigits b w m).dropWhile (· = 0) := by
  have hpadn := beDigits_eq_replicate_append 0 b w n
  have hpadm := beDigits_eq_replicate_append 0 b w m
  have hlen := length_dropWhile_beDigits_le 0 b w n
  have hlen' := length_dropWhile_beDigits_le 0 b w m
  have hhead : ∀ x, ∀ d ∈ ((beDigits b w x).dropWhile (· = 0)).head?, 0 < d :=
    fun x d hd => Nat.pos_of_ne_zero (head_dropWhile_ne 0 _ d hd)
  have hheadn := hhead n
  have hheadm := hhead m
  generalize (beDigits b w n).dropWhile (· = 0) = r at hpadn hlen hheadn
  generalize (beDigits b w m).dropWhile (· = 0) = r' at hpadm hlen' hheadm
  have hpadLt : w - r'.length < w - r.length ↔ r.length < r'.length := by omega
  have hpadEq : w - r.length = w - r'.length ↔ r.length = r'.length := by omega
  rw [← beDigits_lt_beDigits_iff hb hn hm, hpadn, hpadm,
    replicate_append_lt_iff_of_lt hheadn hheadm (by omega), hpadLt, hpadEq]

/-- Numbers below `b ^ w` order as their digits after the leading run of the top digit `c`: by the
length of that run, then by the digits. -/
theorem lt_iff_dropWhile_top {b w n m c : ℕ} (hb : 1 < b) (hc : c + 1 = b) (hn : n < b ^ w)
    (hm : m < b ^ w) :
    n < m ↔ w - ((beDigits b w n).dropWhile (· = c)).length <
        w - ((beDigits b w m).dropWhile (· = c)).length ∨
      w - ((beDigits b w n).dropWhile (· = c)).length =
          w - ((beDigits b w m).dropWhile (· = c)).length ∧
        (beDigits b w n).dropWhile (· = c) < (beDigits b w m).dropWhile (· = c) := by
  have hpadn := beDigits_eq_replicate_append c b w n
  have hpadm := beDigits_eq_replicate_append c b w m
  have hhead : ∀ x, ∀ d ∈ ((beDigits b w x).dropWhile (· = c)).head?, d < c := by
    intro x d hd
    have hne := head_dropWhile_ne c _ d hd
    have hlt : d < b := beDigits_lt (by omega) w x d
      ((List.dropWhile_sublist _).subset (List.mem_of_mem_head? hd))
    omega
  have hheadn := hhead n
  have hheadm := hhead m
  generalize (beDigits b w n).dropWhile (· = c) = r at hpadn hheadn
  generalize (beDigits b w m).dropWhile (· = c) = r' at hpadm hheadm
  rw [← beDigits_lt_beDigits_iff hb hn hm, hpadn, hpadm,
    replicate_append_lt_iff_of_gt hheadn hheadm]

/-- Each digit of base `b * b` as two digits of base `b`, high first. -/
def splitDigits (b : ℕ) (l : List ℕ) : List ℕ := l.flatMap fun d => [d / b, d % b]

/-- Numbers order as their quotient, then their remainder. -/
theorem lt_iff_div_lt_or {b : ℕ} (a c : ℕ) :
    a < c ↔ a / b < c / b ∨ a / b = c / b ∧ a % b < c % b := by
  have ha := Nat.div_add_mod a b
  have hc := Nat.div_add_mod c b
  constructor
  · intro h
    rcases lt_or_eq_of_le (Nat.div_le_div_right (c := b) h.le) with hq | hq
    · exact Or.inl hq
    · refine Or.inr ⟨hq, ?_⟩
      rw [hq] at ha
      omega
  · rintro (hq | ⟨hq, hr⟩)
    · exact Nat.lt_of_div_lt_div hq
    · rw [hq] at ha
      omega

theorem splitDigits_lt_iff (b : ℕ) :
    ∀ {l l' : List ℕ}, splitDigits b l < splitDigits b l' ↔ l < l'
  | [], [] => Iff.rfl
  | [], _ :: _ => iff_of_true (List.nil_lt_cons _ _) (List.nil_lt_cons _ _)
  | _ :: _, [] => iff_of_false (List.not_lt_nil _) (List.not_lt_nil _)
  | a :: l, c :: l' => by
    have hsplit : ∀ d t, splitDigits b (d :: t) = d / b :: d % b :: splitDigits b t := fun _ _ => rfl
    have heq : a = c ↔ a / b = c / b ∧ a % b = c % b := by
      constructor
      · rintro rfl
        exact ⟨rfl, rfl⟩
      · rintro ⟨hq, hr⟩
        rw [← Nat.div_add_mod a b, ← Nat.div_add_mod c b, hq, hr]
    rw [hsplit, hsplit, List.cons_lt_cons_iff, List.cons_lt_cons_iff, List.cons_lt_cons_iff,
      splitDigits_lt_iff b, lt_iff_div_lt_or (b := b) a c, heq]
    tauto

end Digits

section Ascii

theorem toList_loop (bs : ByteArray) :
    ∀ (n i : ℕ) (r : List UInt8), n + i = bs.size →
      ByteArray.toList.loop bs i r = r.reverse ++ bs.data.toList.drop i
  | 0, i, r, h => by
    have hi : ¬i < bs.size := by omega
    have hlen : bs.data.toList.length ≤ i := by
      simp only [Array.length_toList, ByteArray.size] at h ⊢
      omega
    rw [ByteArray.toList.loop, if_neg hi, List.drop_of_length_le hlen, List.append_nil]
  | n + 1, i, r, h => by
    have hi : i < bs.size := by omega
    have hlen : i < bs.data.toList.length := by simpa only [Array.length_toList, ByteArray.size] using hi
    rw [ByteArray.toList.loop, if_pos hi, toList_loop bs n (i + 1) _ (by omega), List.reverse_cons,
      List.append_assoc, ← List.getElem_cons_drop hlen]
    simp only [List.singleton_append, ByteArray.get!, Array.getElem!_eq_getD,
      Array.getD_eq_getD_getElem?, getElem?_pos bs.data i hi, Option.getD_some, Array.getElem_toList]

theorem toList_eq_data_toList (bs : ByteArray) : bs.toList = bs.data.toList := by
  rw [ByteArray.toList, toList_loop bs bs.size 0 [] (Nat.add_zero _)]
  simp

theorem toList_injective : Function.Injective ByteArray.toList := fun a b h => by
  rw [toList_eq_data_toList, toList_eq_data_toList] at h
  exact ByteArray.ext (Array.toList_inj.1 h)

theorem toList_toByteArray (l : List UInt8) : l.toByteArray.toList = l := by
  rw [ByteArray.toList, toList_loop _ l.toByteArray.size 0 [] (Nat.add_zero _)]
  simp [List.data_toByteArray]

theorem flatMap_utf8EncodeChar_of_ascii :
    ∀ {cs : List Char}, (∀ c ∈ cs, c.val ≤ 127) →
      cs.flatMap String.utf8EncodeChar = cs.map fun c => c.val.toUInt8
  | [], _ => rfl
  | c :: cs, h => by
    rw [List.flatMap_cons, List.map_cons,
      String.utf8EncodeChar_eq_singleton (Char.utf8Size_eq_one_iff.2 (h c List.mem_cons_self)),
      flatMap_utf8EncodeChar_of_ascii (fun d hd => h d (List.mem_cons_of_mem c hd))]
    rfl

/-- The UTF-8 bytes of a string of ASCII characters are its characters. -/
theorem toUTF8_ofList_of_ascii {cs : List Char} (h : ∀ c ∈ cs, c.val ≤ 127) :
    (String.ofList cs).toUTF8.toList = cs.map fun c => c.val.toUInt8 := by
  show (String.ofList cs).toByteArray.toList = _
  rw [String.toByteArray_ofList, List.utf8Encode, toList_toByteArray,
    flatMap_utf8EncodeChar_of_ascii h]

end Ascii

end ByteOrder
