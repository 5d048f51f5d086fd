import Mathlib.Data.List.TakeWhile
import Tgtc.AddressBlocks
import Tgtc.ByteRange

/-!
The whitelist of addresses: single addresses and blocks, between commas.
-/
namespace Tgtc.IpWhitelist
open AddressBlocks ByteRange

/-- `\d{1,most}` -/
def digits (most : Nat) (text : List Char) : Bool := text ≠ [] && text.length ≤ most && text.all Char.isDigit

def octets (text : List Char) : Option (List Nat) :=
  let parts := text.splitOn '.'
  if parts.length = 4 && parts.all (digits 3) && (parts.map number).all (· ≤ 255) then some (parts.map number) else none

def ipToBytes (ip : List Char) : Option (List Nat) := octets (trim ip)

def parseCidr (cidr : List Char) : Option (List Nat × Nat) := match (trim cidr).splitOn '/' with
  | [address,length] => match octets address with
    | some bytes => if digits 2 length && number length ≤ 32 then some (bytes,number length) else none
    | none => none
  | _ => none

def cidrContains (cidr ip : List Char) : Bool := match parseCidr cidr,ipToBytes ip with
  | some (bytes,prefixLen),some ipBytes =>
    let fullBytes := prefixLen / 8
    let remainingBits := prefixLen % 8
    let mask := 255 <<< (8 - remainingBits)
    (List.range fullBytes).all (fun i => bytes.getD i 0 = ipBytes.getD i 0) &&
      (remainingBits = 0 || bytes.getD fullBytes 0 &&& mask = ipBytes.getD fullBytes 0 &&& mask)
  | _,_ => false

def entries (raw : String) : List (List Char) := ((raw.toList.splitOn ',').map trim).filter (· ≠ [])

/-- `getConfigString` gives a text of blanks up. -/
def isIpWhitelisted (whitelist : Option String) (ip : String) : Bool := match whitelist with
  | none => false
  | some raw => trim raw.toList ≠ [] && (entries raw).any fun entry =>
      if entry.contains '/' then cidrContains entry ip.toList else entry = ip.toList

def Within (cidr ip : List Char) : Prop :=
  ∃ bytes prefixLen ipBytes,parseCidr cidr = some (bytes,prefixLen) ∧ ipToBytes ip = some ipBytes ∧ SameBlock prefixLen bytes ipBytes

/-- One of the entries is the address, or a block with it. -/
def Whitelisted (whitelist : Option String) (ip : String) : Prop :=
  ∃ raw,whitelist = some raw ∧ ∃ entry ∈ entries raw,if '/' ∈ entry then Within entry ip.toList else entry = ip.toList

section
variable {text cidr ip : List Char} {bytes : List Nat} {bits : Nat}

theorem octets_bytes (read : octets text = some bytes) : bytes.length = 4 ∧ ∀ byte ∈ bytes,byte < 256 := by
  simp only [octets,Option.ite_none_right_eq_some,Option.some.injEq,Bool.and_eq_true,decide_eq_true_eq,List.all_eq_true] at read
  obtain ⟨⟨⟨four,_⟩,small⟩,rfl⟩ := read
  refine ⟨by rw [List.length_map,four],fun byte member => ?_⟩
  have := small byte member
  omega

theorem parseCidr_bytes (read : parseCidr cidr = some (bytes,bits)) :
    bytes.length = 4 ∧ (∀ byte ∈ bytes,byte < 256) ∧ bits ≤ 32 := by
  unfold parseCidr at read
  split at read
  · split at read
    · rename_i known
      simp only [Option.ite_none_right_eq_some,Bool.and_eq_true,decide_eq_true_eq] at read
      obtain ⟨⟨_,small⟩,rfl,rfl⟩ := read
      exact ⟨(octets_bytes known).1,(octets_bytes known).2,small⟩
    · cases read
  · cases read

theorem byte_small (small : ∀ byte ∈ bytes,byte < 256) (i : Nat) : bytes.getD i 0 < 256 := by
  by_cases inside : i < bytes.length
  · rw [List.getD_eq_getElem _ _ inside]
    exact small _ (List.getElem_mem inside)
  · rw [List.getD_eq_default _ _ (by omega)]
    omega

theorem cidrContains_iff : cidrContains cidr ip = true ↔ Within cidr ip := by
  unfold cidrContains Within
  cases block : parseCidr cidr with
  | none => simp
  | some read =>
    obtain ⟨bytes,prefixLen⟩ := read
    cases address : ipToBytes ip with
    | none => simp
    | some ipBytes =>
      obtain ⟨four,small,fits⟩ := parseCidr_bytes block
      obtain ⟨four',small'⟩ := octets_bytes address
      have same := sameBlock_iff (four.trans four'.symm) (by omega : prefixLen ≤ 8 * bytes.length) small small'
      have masked : prefixLen % 8 ≠ 0 → (bytes.getD (prefixLen / 8) 0 &&& 255 <<< (8 - prefixLen % 8) =
          ipBytes.getD (prefixLen / 8) 0 &&& 255 <<< (8 - prefixLen % 8) ↔
            bytes.getD (prefixLen / 8) 0 / 2 ^ (8 - prefixLen % 8) = ipBytes.getD (prefixLen / 8) 0 / 2 ^ (8 - prefixLen % 8)) :=
        fun some => masked_eq (by omega) (byte_small small _) (byte_small small' _)
      simp only [Option.some.injEq,Prod.mk.injEq,exists_and_left,exists_eq_left',and_assoc,same,Bool.and_eq_true,
        List.all_eq_true,List.mem_range,decide_eq_true_eq,Bool.or_eq_true]
      apply and_congr Iff.rfl
      by_cases zero : prefixLen % 8 = 0
      · simp [zero]
      · simp only [zero,false_or,ne_eq,not_false_eq_true,forall_const]
        exact masked zero

end

theorem blank_of_trim {text : List Char} (blank : trim text = []) : ∀ c ∈ text,isSpace c := by
  have front : ∀ c ∈ text.dropWhile isSpace,isSpace c := by
    simpa [trim] using blank
  cases rest : text.dropWhile isSpace with
  | nil => exact List.dropWhile_eq_nil_iff.mp rest
  | cons c more =>
    have other := List.head_dropWhile_not (l := text) isSpace (by simp [rest])
    simp [rest,front c (by simp [rest])] at other

theorem entries_blank {raw : String} (blank : trim raw.toList = []) : entries raw = [] := by
  have noComma : ',' ∉ raw.toList := fun member => absurd (blank_of_trim blank ',' member) (by decide)
  rw [entries,List.splitOn_eq_singleton noComma]
  simp [blank]

theorem isIpWhitelisted_iff {whitelist : Option String} {ip : String} :
    isIpWhitelisted whitelist ip = true ↔ Whitelisted whitelist ip := by
  cases whitelist with
  | none => simp [isIpWhitelisted,Whitelisted]
  | some raw =>
    by_cases blank : trim raw.toList = []
    · simp [isIpWhitelisted,Whitelisted,entries_blank blank]
    · simp [isIpWhitelisted,Whitelisted,blank,cidrContains_iff]

end Tgtc.IpWhitelist
