import Mathlib.Algebra.Order.Ring.Nat
import Mathlib.Data.List.Induction
import Mathlib.Data.UInt
import Mathlib.Tactic.Ring

/-! Numbers as bytes of a fixed width, the highest byte first, and the words that are read
from a buffer at an offset. -/

namespace BigEndian

def bytes : ℕ → ℕ → List UInt8
  | 0, _ => []
  | w + 1, n => bytes w (n / 256) ++ [UInt8.ofNat n]

def value (bs : List UInt8) : ℕ := bs.foldl (fun n b => n * 256 + b.toNat) 0

/-- The number in the `w` bytes from `off` on. -/
def word (w : ℕ) (buf : List UInt8) (off : ℕ) : ℕ := value ((buf.drop off).take w)

@[simp] theorem length_bytes (w n : ℕ) : (bytes w n).length = w := by
  induction w generalizing n with
  | zero => rfl
  | succ w ih => rw [bytes, List.length_append, ih, List.length_singleton]

theorem value_concat (bs : List UInt8) (b : UInt8) :
    value (bs ++ [b]) = value bs * 256 + b.toNat := by
  rw [value, List.foldl_append]
  rfl

theorem value_append (bs cs : List UInt8) :
    value (bs ++ cs) = value bs * 256 ^ cs.length + value cs := by
  induction cs using List.reverseRecOn with
  | nil => rw [List.append_nil, List.length_nil, pow_zero, mul_one]; rfl
  | append_singleton cs c ih =>
    rw [← List.append_assoc, value_concat, ih, value_concat, List.length_append,
      List.length_singleton, pow_succ]
    ring

theorem value_lt (bs : List UInt8) : value bs < 256 ^ bs.length := by
  induction bs using List.reverseRecOn with
  | nil => exact Nat.one_pos
  | append_singleton bs b ih =>
    rw [value_concat, List.length_append, List.length_singleton, pow_succ]
    have hb : b.toNat < 256 := b.toNat_lt
    omega

theorem value_bytes {w n : ℕ} (h : n < 256 ^ w) : value (bytes w n) = n := by
  induction w generalizing n with
  | zero =>
    rw [pow_zero] at h
    rw [Nat.lt_one_iff.mp h]
    rfl
  | succ w ih =>
    have hhigh : n / 256 < 256 ^ w := by
      rw [pow_succ] at h
      exact Nat.div_lt_of_lt_mul (Nat.mul_comm (256 ^ w) 256 ▸ h)
    have hlow : (UInt8.ofNat n).toNat = n % 256 := UInt8.toNat_ofNat'
    rw [bytes, value_concat, ih hhigh, hlow]
    exact Nat.div_add_mod' n 256

theorem bytes_value (bs : List UInt8) : bytes bs.length (value bs) = bs := by
  induction bs using List.reverseRecOn with
  | nil => rfl
  | append_singleton bs b ih =>
    have hb : b.toNat < 256 := b.toNat_lt
    have hhigh : (value bs * 256 + b.toNat) / 256 = value bs := by omega
    have hlow : UInt8.ofNat (value bs * 256 + b.toNat) = b := by
      apply UInt8.toNat_inj.mp
      rw [UInt8.toNat_ofNat']
      omega
    rw [value_concat, List.length_append, List.length_singleton, bytes, hhigh, hlow, ih]

theorem word_lt (w : ℕ) (buf : List UInt8) (off : ℕ) : word w buf off < 256 ^ w := by
  refine (value_lt _).trans_le (Nat.pow_le_pow_right (by decide) ?_)
  exact List.length_take_le w _

@[simp] theorem word_bytes_append {w n : ℕ} (h : n < 256 ^ w) (rest : List UInt8) :
    word w (bytes w n ++ rest) 0 = n := by
  have htake : (bytes w n ++ rest).take w = bytes w n := by
    rw [List.take_append_of_le_length (length_bytes w n).ge]
    exact List.take_of_length_le (length_bytes w n).le
  rw [word, List.drop_zero, htake, value_bytes h]

theorem word_append {front : List UInt8} {off : ℕ} (h : front.length ≤ off) (w : ℕ)
    (rest : List UInt8) : word w (front ++ rest) off = word w rest (off - front.length) := by
  rw [word, word, List.drop_append, List.drop_of_length_le h, List.nil_append]

theorem word_add {v w off : ℕ} {buf : List UInt8} (h : off + v + w ≤ buf.length) :
    word (v + w) buf off = word v buf off * 256 ^ w + word w buf (off + v) := by
  have hsplit : (buf.drop off).take (v + w) =
      (buf.drop off).take v ++ (buf.drop (off + v)).take w := by
    rw [List.take_add, List.drop_drop]
  have hlength : ((buf.drop (off + v)).take w).length = w := by
    rw [List.length_take, List.length_drop]
    omega
  rw [word, hsplit, value_append, hlength]
  rfl

theorem drop_eq (w off : ℕ) (buf : List UInt8) (h : off + w ≤ buf.length) :
    buf.drop off = bytes w (word w buf off) ++ buf.drop (off + w) := by
  have hlength : ((buf.drop off).take w).length = w := by
    rw [List.length_take, List.length_drop]
    omega
  have hword : bytes w (word w buf off) = (buf.drop off).take w := by
    have hbytes := bytes_value ((buf.drop off).take w)
    rwa [hlength] at hbytes
  rw [hword, ← List.drop_drop, List.take_append_drop]

/-! The words of a buffer one after the other. -/

/-- The whole words of a buffer; what is left of it is shorter than one. -/
def words (w : ℕ) (buf : List UInt8) : List ℕ :=
  if 0 < w ∧ w ≤ buf.length then word w buf 0 :: words w (buf.drop w) else []
termination_by buf.length
decreasing_by
  rw [List.length_drop]
  omega

theorem words_eq_nil {w : ℕ} {buf : List UInt8} (h : buf.length < w) : words w buf = [] := by
  rw [words, if_neg (by omega)]

theorem words_eq_cons {w : ℕ} {buf : List UInt8} (hw : 0 < w) (h : w ≤ buf.length) :
    words w buf = word w buf 0 :: words w (buf.drop w) := by
  rw [words, if_pos ⟨hw, h⟩]

theorem words_flatMap {w : ℕ} {ns : List ℕ} (hns : ∀ n ∈ ns, n < 256 ^ w)
    {fragment : List UInt8} (h : fragment.length < w) :
    words w (ns.flatMap (bytes w) ++ fragment) = ns := by
  induction ns with
  | nil => exact words_eq_nil h
  | cons n ns ih =>
    have hlength : w ≤ ((n :: ns).flatMap (bytes w) ++ fragment).length := by
      rw [List.flatMap_cons, List.length_append, List.length_append, length_bytes]
      omega
    rw [words_eq_cons (by omega) hlength, List.flatMap_cons, List.append_assoc,
      word_bytes_append (hns n List.mem_cons_self),
      List.drop_append_of_le_length (length_bytes w n).ge,
      List.drop_of_length_le (length_bytes w n).le, List.nil_append,
      ih fun m hm => hns m (List.mem_cons_of_mem n hm)]

theorem exists_words_append {w : ℕ} (hw : 0 < w) (buf : List UInt8) :
    ∃ fragment, fragment.length < w ∧ buf = (words w buf).flatMap (bytes w) ++ fragment := by
  fun_induction words w buf with
  | case1 buf h ih =>
    obtain ⟨fragment, hfragment, hrest⟩ := ih
    refine ⟨fragment, hfragment, ?_⟩
    have hhead : buf = bytes w (word w buf 0) ++ buf.drop w := by
      have hdrop := drop_eq w 0 buf (by omega)
      rwa [List.drop_zero, Nat.zero_add] at hdrop
    rw [List.flatMap_cons, List.append_assoc, ← hrest]
    exact hhead
  | case2 buf h => exact ⟨buf, by omega, by rw [List.flatMap_nil, List.nil_append]⟩

theorem lt_of_mem_words {w : ℕ} {buf : List UInt8} {n : ℕ} (h : n ∈ words w buf) :
    n < 256 ^ w := by
  fun_induction words w buf with
  | case1 buf hw ih =>
    rcases List.mem_cons.mp h with rfl | hrest
    · exact word_lt w buf 0
    · exact ih hrest
  | case2 => exact absurd h List.not_mem_nil

end BigEndian
