import Mathlib

/-!
Range headers. One range is taken apart, and is brought within the size of what it is about.
-/
namespace Tgtc.ByteRange

/-- Blanks and ends of lines, as `trim` takes them away. -/
def isSpace (c : Char) : Bool :=
  let n := c.toNat
  (9 ≤ n && n ≤ 13) || n == 0x20 || n == 0xA0 || n == 0x1680 || (0x2000 ≤ n && n ≤ 0x200A) || n == 0x2028 || n == 0x2029 ||
    n == 0x202F || n == 0x205F || n == 0x3000 || n == 0xFEFF

def trim (text : List Char) : List Char := ((text.dropWhile isSpace).reverse.dropWhile isSpace).reverse

def units (text : List Char) : Nat := (text.map fun c => if c.toNat < 0x10000 then 1 else 2).sum

/-- `Number`, of digits. -/
def number (digits : List Char) : Nat := digits.foldl (fun n c => 10 * n + (c.toNat - '0'.toNat)) 0

/-- `Number.isSafeInteger`: a larger number is rounded to one that is not safe either. -/
def isSafeInteger (n : Nat) : Bool := n < 2 ^ 53

def MAX_RANGE_HEADER_LENGTH : Nat := 256

structure ParsedByteRange where
  start : Nat
  «end» : Int
  suffix : Bool
deriving DecidableEq

inductive Reason where
  | syntaxError | unit | multipart | unsatisfiable
deriving DecidableEq

/-- `/^bytes=([0-9]+)?-([0-9]*)$/` -/
def groups (trimmed : List Char) : Option (List Char × List Char) :=
  if "bytes=".toList.isPrefixOf trimmed then
    match (trimmed.drop 6).dropWhile Char.isDigit with
    | '-' :: lastStr => if lastStr.all Char.isDigit then some ((trimmed.drop 6).takeWhile Char.isDigit,lastStr) else none
    | _ => none
  else none

def parseByteRange (header : String) (size : Nat) : Except Reason ParsedByteRange :=
  let trimmed := trim header.toList
  if trimmed = [] then .error .syntaxError
  else if MAX_RANGE_HEADER_LENGTH < units header.toList then .error .syntaxError
  else match groups trimmed with
    | none => .error (if "bytes=".toList.isPrefixOf trimmed && trimmed.contains ',' then .multipart else .unit)
    | some (firstStr,lastStr) =>
      if firstStr = [] then
        let suffix := number lastStr
        if lastStr = [] then .error .syntaxError
        else if !isSafeInteger suffix || suffix = 0 then .error .syntaxError
        else if size ≤ suffix then .ok ⟨0,size - 1,true⟩
        else .ok ⟨size - suffix,size - 1,true⟩
      else
        let first := number firstStr
        let last := number lastStr
        if !isSafeInteger first then .error .syntaxError
        else if lastStr = [] then if size ≤ first then .error .unsatisfiable else .ok ⟨first,size - 1,false⟩
        else if !isSafeInteger last || last < first then .error .syntaxError
        else if size ≤ first then .error .unsatisfiable
        else .ok ⟨first,if size ≤ last then size - 1 else last,false⟩

inductive Form where
  | closed (first last : Nat)
  | openEnded (first : Nat)
  | suffix (length : Nat)

structure Written (text first last : List Char) : Prop where
  shape : text = "bytes=".toList ++ (first ++ '-' :: last)
  first : ∀ c ∈ first,c.isDigit
  last : ∀ c ∈ last,c.isDigit

def Form.Reads (first last : List Char) : Form → Prop
  | .closed a b => first ≠ [] ∧ last ≠ [] ∧ a = number first ∧ b = number last ∧ a ≤ b
  | .openEnded a => first ≠ [] ∧ last = [] ∧ a = number first
  | .suffix n => first = [] ∧ n = number last ∧ 0 < n

/-- The text is a well-formed range of this form. -/
def Denotes (text : List Char) (form : Form) : Prop := ∃ first last,Written text first last ∧ form.Reads first last

def Form.Selects (size i : Nat) : Form → Prop
  | .closed a b => i < size ∧ a ≤ i ∧ i ≤ b
  | .openEnded a => i < size ∧ a ≤ i
  | .suffix n => i < size ∧ size ≤ i + n

def Form.Safe : Form → Prop
  | .closed a b => a < 2 ^ 53 ∧ b < 2 ^ 53
  | .openEnded a => a < 2 ^ 53
  | .suffix n => n < 2 ^ 53

section
variable {text first last : List Char} {form form' : Form} {header : String} {size : Nat}

theorem groups_iff : groups text = some (first,last) ↔ Written text first last := by
  constructor
  · intro read
    obtain ⟨starts,read⟩ := Option.ite_none_right_eq_some.mp read
    obtain ⟨rest,rfl⟩ := List.isPrefixOf_iff_prefix.mp starts
    rw [List.drop_left' (by decide)] at read
    split at read
    · next lastStr after =>
      obtain ⟨digits,read⟩ := Option.ite_none_right_eq_some.mp read
      cases read
      exact ⟨by rw [← after,List.takeWhile_append_dropWhile],List.all_eq_true.mp List.all_takeWhile,List.all_eq_true.mp digits⟩
    · cases read
  · rintro ⟨rfl,front,back⟩
    simp [groups,List.takeWhile_append_of_pos front,List.dropWhile_append_of_pos front,List.all_eq_true.mpr back]

theorem denotes_iff (written : Written text first last) : Denotes text form ↔ form.Reads first last := by
  refine ⟨fun ⟨first',last',written',reads⟩ => ?_,fun reads => ⟨first,last,written,reads⟩⟩
  cases Option.mem_unique (groups_iff.mpr written) (groups_iff.mpr written')
  exact reads

theorem denotes_unique (denotes : Denotes text form) (denotes' : Denotes text form') : form' = form := by
  obtain ⟨first,last,written,reads⟩ := denotes
  have reads' := (denotes_iff written).mp denotes'
  cases form <;> cases form' <;> simp_all [Form.Reads]

/-- The range is what the form selects, of which there is something. -/
structure Answers (size : Nat) (form : Form) (range : ParsedByteRange) : Prop where
  ordered : range.start ≤ range.end
  within : range.end < size
  selected : ∀ i : Nat,form.Selects size i ↔ range.start ≤ i ∧ i ≤ range.end

inductive Outcome (size : Nat) (form : Form) (parsed : Except Reason ParsedByteRange) : Prop where
  | answered (range : ParsedByteRange) (ok : parsed = .ok range) (answers : Answers size form range)
  | unsatisfiable (error : parsed = .error .unsatisfiable) (nothing : ∀ i,¬form.Selects size i)

theorem parse_denoted (short : units header.toList ≤ MAX_RANGE_HEADER_LENGTH) (written : Written (trim header.toList) first last)
    (filled : ∀ n,form = .suffix n → 0 < size) (reads : form.Reads first last) (safe : form.Safe) :
    Outcome size form (parseByteRange header size) := by
  have short : ¬MAX_RANGE_HEADER_LENGTH < units header.toList := by omega
  have something : trim header.toList ≠ [] := by simp [written.shape]
  have parsed := parseByteRange.eq_1 header size
  rw [if_neg something,if_neg short,groups_iff.mpr written] at parsed
  simp only [isSafeInteger,Bool.not_eq_eq_eq_not,Bool.not_true,decide_eq_false_iff_not,Bool.or_eq_true,decide_eq_true_eq] at parsed
  cases form with
  | closed a b =>
    obtain ⟨front,back,rfl,rfl,ordered⟩ := reads
    obtain ⟨low,high⟩ := safe
    rw [if_neg front,if_neg (not_not.mpr low),if_neg back,if_neg (by omega)] at parsed
    split at parsed
    · exact .unsatisfiable parsed fun i chosen => by simp only [Form.Selects] at chosen; omega
    · refine .answered _ parsed ⟨?_,?_,fun i => ?_⟩ <;> simp only [Form.Selects] <;> split <;> omega
  | openEnded a =>
    obtain ⟨front,rfl,rfl⟩ := reads
    have low : number first < 2 ^ 53 := safe
    rw [if_neg front,if_neg (not_not.mpr low),if_pos rfl] at parsed
    split at parsed
    · exact .unsatisfiable parsed fun i chosen => by simp only [Form.Selects] at chosen; omega
    · refine .answered _ parsed ⟨?_,?_,fun i => ?_⟩ <;> simp only [Form.Selects] <;> omega
  | suffix n =>
    obtain ⟨rfl,rfl,positive⟩ := reads
    have filled := filled _ rfl
    have back : last ≠ [] := by rintro rfl; exact absurd positive (by decide)
    have small : number last < 2 ^ 53 := safe
    rw [if_pos rfl,if_neg back,if_neg (by omega)] at parsed
    split at parsed
    all_goals refine .answered _ parsed ⟨?_,?_,fun i => ?_⟩ <;> simp only [Form.Selects] <;> omega

/-- What the parser makes of a header. -/
structure Exact (header : String) (size : Nat) : Prop where
  accepts : (∃ range,parseByteRange header size = .ok range) ↔
    ∃ form,Denotes (trim header.toList) form ∧ form.Safe ∧ ∃ i,form.Selects size i
  sound : ∀ range,parseByteRange header size = .ok range → range.start ≤ range.end ∧ range.end < size ∧
    ∀ form,Denotes (trim header.toList) form → ∀ i : Nat,form.Selects size i ↔ range.start ≤ i ∧ i ≤ range.end
  unsatisfiable : parseByteRange header size = .error .unsatisfiable ↔
    ∃ form,Denotes (trim header.toList) form ∧ form.Safe ∧ ∀ i,¬form.Selects size i

theorem parse_undenoted (undenoted : ∀ form,Denotes (trim header.toList) form → ¬form.Safe) :
    ∃ reason,parseByteRange header size = .error reason ∧ reason ≠ .unsatisfiable := by
  unfold parseByteRange
  dsimp only
  cases read : groups (trim header.toList) with
  | none =>
    dsimp only
    split_ifs <;> exact ⟨_,rfl,nofun⟩
  | some strs =>
    obtain ⟨first,last⟩ := strs
    have written := groups_iff.mp read
    have long (form : Form) (reads : form.Reads first last) := undenoted form ((denotes_iff written).mpr reads)
    have longSuffix := long (.suffix (number last))
    have longOpen := long (.openEnded (number first))
    have longClosed := long (.closed (number first) (number last))
    simp only [Form.Reads,Form.Safe] at longSuffix longOpen longClosed
    simp only [isSafeInteger,Bool.or_eq_true]
    split_ifs
    all_goals first
      | exact ⟨_,rfl,by decide⟩
      | grind

theorem parse_exact (header : String) (size : Nat) (short : units header.toList ≤ MAX_RANGE_HEADER_LENGTH)
    (filled : ∀ n,Denotes (trim header.toList) (.suffix n) → 0 < size) : Exact header size := by
  by_cases denoted : ∃ form,Denotes (trim header.toList) form ∧ form.Safe
  · obtain ⟨form,denotes,safe⟩ := denoted
    obtain ⟨first,last,written,reads⟩ := id denotes
    cases parse_denoted short written (fun n here => filled n (here ▸ denotes)) reads safe with
    | answered range ok answers =>
      have chosen : form.Selects size range.start := (answers.selected _).mpr ⟨Nat.le_refl _,answers.ordered⟩
      refine ⟨⟨fun _ => ⟨form,denotes,safe,_,chosen⟩,fun _ => ⟨range,ok⟩⟩,fun range' ok' => ?_,?_⟩
      · cases ok.symm.trans ok'
        refine ⟨answers.ordered,answers.within,fun form' denotes' => ?_⟩
        rw [denotes_unique denotes denotes']
        exact answers.selected
      · rw [ok]
        exact ⟨nofun,fun ⟨form',denotes',_,nothing⟩ => absurd chosen (denotes_unique denotes denotes' ▸ nothing _)⟩
    | unsatisfiable error nothing =>
      constructor
      · rw [error]
        exact ⟨nofun,fun ⟨form',denotes',_,i,chosen⟩ => absurd (denotes_unique denotes denotes' ▸ chosen) (nothing i)⟩
      · rw [error]
        nofun
      · exact ⟨fun _ => ⟨form,denotes,safe,nothing⟩,fun _ => error⟩
  · have undenoted (form : Form) (denotes : Denotes (trim header.toList) form) (safe : form.Safe) := denoted ⟨form,denotes,safe⟩
    obtain ⟨reason,refused,other⟩ := parse_undenoted undenoted
    constructor
    · rw [refused]
      exact ⟨nofun,fun ⟨form,denotes,safe,_⟩ => absurd safe (undenoted form denotes)⟩
    · rw [refused]
      nofun
    · rw [refused]
      exact ⟨fun here => absurd (Except.error.inj here) other,fun ⟨form,denotes,safe,_⟩ => absurd safe (undenoted form denotes)⟩

theorem parse_exact_closed : Exact "bytes=0-99" 50 := parse_exact _ _ (by decide) fun _ _ => by decide

theorem parse_refuses_unsafe : ¬∀ (header : String) (size : Nat),units header.toList ≤ MAX_RANGE_HEADER_LENGTH →
    ((∃ range,parseByteRange header size = .ok range) ↔ ∃ form,Denotes (trim header.toList) form ∧ ∃ i,form.Selects size i) := by
  intro always
  have written : Written (trim "bytes=0-9007199254740992".toList) ['0'] "9007199254740992".toList :=
    ⟨by decide +kernel,List.all_eq_true.mp (by decide),List.all_eq_true.mp (by decide +kernel)⟩
  obtain ⟨range,ok⟩ := (always "bytes=0-9007199254740992" 10 (by decide)).mpr
    ⟨.closed 0 (2 ^ 53),⟨_,_,written,by unfold Form.Reads; decide +kernel⟩,0,by unfold Form.Selects; decide⟩
  have refused : parseByteRange "bytes=0-9007199254740992" 10 = .error .syntaxError := by decide +kernel
  cases refused.symm.trans ok

end

theorem number_toDigits (n : Nat) : number (Nat.toDigits 10 n) = n := by
  have read := Nat.ofDigitChars_toDigits (b := 10) (n := n) (by decide) (by decide)
  rwa [Nat.ofDigitChars_eq_foldl] at read

theorem isSpace_digit {c : Char} (digit : c.isDigit) : isSpace c = false := by
  have bounds : 48 ≤ c.toNat ∧ c.toNat ≤ 57 := by simpa [Char.isDigit,UInt32.le_iff_toNat_le] using digit
  simp only [isSpace]
  grind

theorem trim_self {text : List Char} (clean : ∀ c ∈ text,isSpace c = false) : trim text = text := by
  have kept (l : List Char) (clean : ∀ c ∈ l,isSpace c = false) : l.dropWhile isSpace = l :=
    List.dropWhile_eq_self_iff.mpr fun _ => by simp [clean]
  rw [trim,kept text clean,kept _ fun c member => clean c (List.mem_reverse.mp member),List.reverse_reverse]

theorem units_le (text : List Char) : units text ≤ 2 * text.length := by
  induction text with
  | nil => exact le_rfl
  | cons c text ih =>
    simp only [units,List.map_cons,List.sum_cons,List.length_cons] at ih ⊢
    split <;> omega

/-- A range that is written out in numbers is read as it was meant. -/
theorem parse_rendered (a b size : Nat) (ordered : a ≤ b) (inside : b < size) (safe : size ≤ 2 ^ 53) :
    ∃ range,parseByteRange ("bytes=" ++ toString a ++ "-" ++ toString b) size = .ok range ∧ range.start = a ∧ range.end = b := by
  set header := "bytes=" ++ toString a ++ "-" ++ toString b with rendered
  have text : header.toList = "bytes=".toList ++ (Nat.toDigits 10 a ++ '-' :: Nat.toDigits 10 b) := by simp [rendered]
  have digit (n : Nat) : ∀ c ∈ Nat.toDigits 10 n,c.isDigit := fun _ => Nat.isDigit_of_mem_toDigits (by decide) (by decide)
  have few (n : Nat) (small : n < 2 ^ 53) : (Nat.toDigits 10 n).length ≤ 16 := (Nat.length_toDigits_le_iff (by decide) (by decide)).mpr (by omega)
  have plain : ∀ c ∈ header.toList,isSpace c = false := by
    intro c member
    rw [text,List.mem_append,List.mem_append,List.mem_cons] at member
    rcases member with front | first | rfl | last
    · revert c
      simp [isSpace]
    · exact isSpace_digit (digit a c first)
    · decide
    · exact isSpace_digit (digit b c last)
  have short : units header.toList ≤ MAX_RANGE_HEADER_LENGTH := by
    have := units_le header.toList
    have := few a (by omega)
    have := few b (by omega)
    simp only [text,List.length_append,List.length_cons,MAX_RANGE_HEADER_LENGTH,String.reduceToList,List.length_nil] at *
    omega
  have written : Written (trim header.toList) (Nat.toDigits 10 a) (Nat.toDigits 10 b) := by
    rw [trim_self plain]
    exact ⟨text,digit a,digit b⟩
  have outcome : Outcome size (.closed a b) (parseByteRange header size) :=
    parse_denoted short written (by intro n other; cases other)
      ⟨Nat.toDigits_ne_nil,Nat.toDigits_ne_nil,(number_toDigits a).symm,(number_toDigits b).symm,ordered⟩ ⟨by omega,by omega⟩
  cases outcome with
  | answered range ok answers =>
    have first := (answers.selected a).mp ⟨by omega,le_rfl,ordered⟩
    have last := (answers.selected b).mp ⟨inside,ordered,le_rfl⟩
    have low := (answers.selected range.start).mpr ⟨le_rfl,answers.ordered⟩
    have high := (answers.selected range.end.toNat).mpr ⟨by omega,by omega⟩
    simp only [Form.Selects] at low high
    exact ⟨range,ok,by omega,by omega⟩
  | unsatisfiable _ nothing => exact absurd ⟨inside,ordered,le_rfl⟩ (nothing b)

theorem parse_rendered_first : ∃ range,parseByteRange "bytes=0-1023" 4096 = .ok range ∧ range.start = 0 ∧ range.end = 1023 :=
  parse_rendered 0 1023 4096 (by decide) (by decide) (by decide)

example : parseByteRange "bytes=0-99" 50 = .ok ⟨0,49,false⟩ := by decide +kernel
example : parseByteRange "bytes=-1" 0 = .ok ⟨0,-1,true⟩ := by decide +kernel

/-- `sha1` is the digest of a text, in hexadecimal digits. -/
def buildFileVersionETag (sha1 : String → String) (id : String) (version size : Nat) : String :=
  "\"" ++ sha1 (id ++ ":" ++ toString version ++ ":" ++ toString size) ++ "\""

def matchesIfRange (ifRange : Option String) (etag : String) : Bool :=
  match ifRange with
  | none => true
  | some text => text = "" || trim text.toList == etag.toList

end Tgtc.ByteRange
