import Mathlib.Data.Nat.Bitwise
import Mathlib.Data.List.GetD
import Mathlib.Tactic.Ring

/-!
Blocks of addresses. An address is a number of bytes, a block the addresses with the same leading
bits. Comparing byte by byte, and the last byte under a mask, is comparing the leading bits.
-/
namespace Tgtc.AddressBlocks

def value : List Nat → Nat
  | [] => 0
  | byte :: rest => byte * 2 ^ (8 * rest.length) + value rest

/-- Two addresses of one length have the first `bits` bits in common. -/
def SameBlock (bits : Nat) (a b : List Nat) : Prop :=
  value a / 2 ^ (8 * a.length - bits) = value b / 2 ^ (8 * a.length - bits)

def SameBytes (bits : Nat) (a b : List Nat) : Prop :=
  (∀ i < bits / 8,a.getD i 0 = b.getD i 0) ∧
    (bits % 8 ≠ 0 → a.getD (bits / 8) 0 / 2 ^ (8 - bits % 8) = b.getD (bits / 8) 0 / 2 ^ (8 - bits % 8))

section
variable {a b : List Nat} {bits x y : Nat}

theorem value_lt (bytes : ∀ byte ∈ a,byte < 256) : value a < 2 ^ (8 * a.length) := by
  induction a with
  | nil => simp [value]
  | cons byte rest ih =>
    have first : byte + 1 ≤ 2 ^ 8 := bytes byte List.mem_cons_self
    have others := ih fun other member => bytes other (List.mem_cons_of_mem byte member)
    calc byte * 2 ^ (8 * rest.length) + value rest < (byte + 1) * 2 ^ (8 * rest.length) := by
          rw [Nat.succ_mul byte]
          exact Nat.add_lt_add_left others _
      _ ≤ 2 ^ 8 * 2 ^ (8 * rest.length) := Nat.mul_le_mul_right _ first
      _ = 2 ^ (8 * (byte :: rest).length) := by
          rw [← pow_add,List.length_cons]
          congr 1
          omega

theorem split_high {v w k l : Nat} (left : v < 2 ^ (k + l)) (right : w < 2 ^ (k + l)) :
    (x * 2 ^ (k + l) + v) / 2 ^ l = (y * 2 ^ (k + l) + w) / 2 ^ l ↔ x = y ∧ v / 2 ^ l = w / 2 ^ l := by
  have high (z u : Nat) : (z * 2 ^ (k + l) + u) / 2 ^ l = z * 2 ^ k + u / 2 ^ l := by
    rw [pow_add,← Nat.mul_assoc,Nat.add_comm,Nat.add_mul_div_right _ _ (Nat.two_pow_pos l),Nat.add_comm]
  have small {u : Nat} (bound : u < 2 ^ (k + l)) : u / 2 ^ l < 2 ^ k := by
    rw [Nat.div_lt_iff_lt_mul (Nat.two_pow_pos l),← pow_add]
    exact bound
  rw [high,high]
  constructor
  · intro same
    have quotient := congrArg (· / 2 ^ k) same
    simp only [Nat.mul_comm _ (2 ^ k),Nat.mul_add_div (Nat.two_pow_pos k),Nat.div_eq_of_lt (small left),
      Nat.div_eq_of_lt (small right)] at quotient
    subst quotient
    exact ⟨rfl,Nat.add_left_cancel same⟩
  · rintro ⟨rfl,same⟩
    rw [same]

theorem split_low {v l : Nat} (k : Nat) (bound : v < 2 ^ l) : (x * 2 ^ l + v) / 2 ^ (l + k) = x / 2 ^ k := by
  rw [pow_add,← Nat.div_div_eq_div_mul,Nat.mul_comm,Nat.mul_add_div (Nat.two_pow_pos l),Nat.div_eq_of_lt bound,Nat.add_zero]

theorem sameBytes_cons (whole : 8 ≤ bits) : SameBytes bits (x :: a) (y :: b) ↔ x = y ∧ SameBytes (bits - 8) a b := by
  obtain ⟨more,rfl⟩ := Nat.exists_eq_add_of_le' whole
  have quotient : (more + 8) / 8 = more / 8 + 1 := by omega
  unfold SameBytes
  rw [quotient,Nat.add_mod_right]
  constructor
  · rintro ⟨bytes,rest⟩
    exact ⟨bytes 0 (by omega),fun i below => bytes (i + 1) (by omega),rest⟩
  · rintro ⟨rfl,bytes,rest⟩
    refine ⟨fun i below => ?_,rest⟩
    cases i with
    | zero => rfl
    | succ i => exact bytes i (by omega)

theorem sameBlock_iff (long : a.length = b.length) (fits : bits ≤ 8 * a.length) (left : ∀ byte ∈ a,byte < 256)
    (right : ∀ byte ∈ b,byte < 256) : SameBlock bits a b ↔ SameBytes bits a b := by
  induction a generalizing b bits with
  | nil =>
    obtain rfl : b = [] := List.length_eq_zero_iff.mp long.symm
    simp [SameBlock,SameBytes]
  | cons x a ih =>
    cases b with
    | nil => simp at long
    | cons y b =>
      have alike : a.length = b.length := by simpa using long
      have bytesA : ∀ byte ∈ a,byte < 256 := fun byte member => left byte (List.mem_cons_of_mem x member)
      have bytesB : ∀ byte ∈ b,byte < 256 := fun byte member => right byte (List.mem_cons_of_mem y member)
      have boundA := value_lt bytesA
      have boundB := alike ▸ value_lt bytesB
      rw [List.length_cons] at fits
      by_cases whole : 8 ≤ bits
      · rw [sameBytes_cons whole,← ih alike (by omega) bytesA bytesB]
        have rest : 8 * (a.length + 1) - bits = 8 * a.length - (bits - 8) := by omega
        have parts : 8 * a.length = (bits - 8) + (8 * a.length - (bits - 8)) := by omega
        unfold SameBlock
        simp only [value,List.length_cons,rest,← alike]
        generalize 8 * a.length - (bits - 8) = l at *
        rw [parts] at boundA boundB ⊢
        exact split_high boundA boundB
      · have rest : 8 * (a.length + 1) - bits = 8 * a.length + (8 - bits) := by omega
        have none : bits / 8 = 0 := by omega
        have some : bits % 8 = bits := by omega
        unfold SameBlock SameBytes
        simp only [value,List.length_cons,rest,← alike]
        rw [split_low _ boundA,split_low _ boundB,none,some]
        by_cases zero : bits = 0
        · subst zero
          have first : x / 256 = 0 := Nat.div_eq_of_lt (left x List.mem_cons_self)
          have second : y / 256 = 0 := Nat.div_eq_of_lt (right y List.mem_cons_self)
          simp [first,second]
        · simp [zero]

end

theorem masked_byte : ∀ k < 8,∀ byte < 256,byte &&& (255 <<< k) = byte / 2 ^ k * 2 ^ k := by decide +kernel

theorem masked_eq {x y k : Nat} (small : k < 8) (left : x < 256) (right : y < 256) :
    x &&& (255 <<< k) = y &&& (255 <<< k) ↔ x / 2 ^ k = y / 2 ^ k := by
  rw [masked_byte k small x left,masked_byte k small y right]
  exact Nat.mul_left_inj (Nat.two_pow_pos k).ne'

end Tgtc.AddressBlocks
