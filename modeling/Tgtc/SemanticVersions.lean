import Tgtc.ByteRange
import Tgtc.Doubles
import Tgtc.Precedence

/-!
Semantic versions as the server reads and compares them. The numbers of a version are taken as
doubles, so that they compare as they should up to 2^53.
-/
namespace Tgtc.SemanticVersions
open ByteRange Doubles Precedence

def double (n : Nat) : ℚ := min (rounded n) (2 ^ 1024)

/-- `0|[1-9]\d*` -/
def numericIdentifier (text : List Char) : Bool := text = ['0'] || (text ≠ [] && text.all Char.isDigit && text.head? ≠ some '0')

/-- `[0-9A-Za-z-]+` -/
def word (text : List Char) : Bool := text ≠ [] && text.all fun c => c.isAlphanum || c = '-'

/-- `0|[1-9]\d*|\d*[A-Za-z-][0-9A-Za-z-]*` -/
def prereleaseIdentifier (text : List Char) : Bool := word text && (!text.all Char.isDigit || numericIdentifier text)

structure Groups where
  major : List Char
  minor : List Char
  patch : List Char
  prerelease : Option (List (List Char))
  build : Option (List Char)

/-- What is before the first `c`, and after it. -/
def cut (c : Char) (text : List Char) : List Char × Option (List Char) := match text.span (· ≠ c) with
  | (front,[]) => (front,none)
  | (front,_ :: rest) => (front,some rest)

def pattern (raw : String) : Option Groups :=
  let (front,build) := cut '+' raw.toList
  let (core,prerelease) := cut '-' front
  match core.splitOn '.' with
  | [major,minor,patch] =>
    if [major,minor,patch].all numericIdentifier && (prerelease.all fun text => (text.splitOn '.').all prereleaseIdentifier) &&
        (build.all fun text => (text.splitOn '.').all word) then
      some ⟨major,minor,patch,prerelease.map (List.splitOn '.'),build⟩
    else none
  | _ => none

structure SemVer where
  major : ℚ
  minor : ℚ
  patch : ℚ
  prerelease : Option (List (List Char))
  build : Option (List Char)

def parseSemver (raw : String) : Option SemVer := (pattern raw).map fun g =>
  ⟨double (number g.major),double (number g.minor),double (number g.patch),g.prerelease,g.build⟩

def isStableVersion (raw : String) : Bool := (parseSemver raw).any fun parsed => parsed.prerelease.isNone

def comparePrereleaseIdentifier (a b : List Char) : Int :=
  if numericIdentifier a && numericIdentifier b then
    let diff := double (number a) - double (number b)
    if diff < 0 then -1 else if 0 < diff then 1 else 0
  else if numericIdentifier a then -1
  else if numericIdentifier b then 1
  else if a = b then 0
  else if a < b then -1 else 1

def compareIdentifiers : List (List Char) → List (List Char) → Int
  | [],[] => 0
  | [],_ :: _ => -1
  | _ :: _,[] => 1
  | x :: a,y :: b =>
    let result := comparePrereleaseIdentifier x y
    if result ≠ 0 then result else compareIdentifiers a b

def comparePrerelease : Option (List (List Char)) → Option (List (List Char)) → Int
  | none,none => 0
  | none,some _ => 1
  | some _,none => -1
  | some a,some b => compareIdentifiers a b

def compareParsed (left right : SemVer) : Int :=
  if left.major ≠ right.major then (if left.major < right.major then -1 else 1)
  else if left.minor ≠ right.minor then (if left.minor < right.minor then -1 else 1)
  else if left.patch ≠ right.patch then (if left.patch < right.patch then -1 else 1)
  else comparePrerelease left.prerelease right.prerelease

def compareSemver (a b : String) : Option Int := match parseSemver a,parseSemver b with
  | some left,some right => some (compareParsed left right)
  | _,_ => none

def versionFromTag (tag : String) : Option String := match tag.toList with
  | 'v' :: version => if (parseSemver (String.ofList version)).isSome then some (String.ofList version) else none
  | _ => none

example : compareSemver "1.0.0-alpha.2" "1.0.0-alpha.10" = some (-1) := by decide +kernel

def identifier (text : List Char) : Identifier := if numericIdentifier text then toLex (.inl (number text)) else toLex (.inr text)

def identifiers : Option (List (List Char)) → WithTop (List Identifier)
  | none => ⊤
  | some ids => (ids.map identifier : List Identifier)

def Groups.version (g : Groups) : Version where
  major := number g.major
  minor := number g.minor
  patch := number g.patch
  prerelease := identifiers g.prerelease

def precedence (raw : String) : WithBot Rank := match pattern raw with
  | none => ⊥
  | some g => g.version.rank

/-- Of two versions that can be read, the second one has the higher precedence. -/
def Below (a b : String) : Prop := pattern a ≠ none ∧ precedence a < precedence b

instance (a b : String) : Decidable (Below a b) := inferInstanceAs (Decidable (_ ∧ _))

def small (digits : List Char) : Bool := number digits ≤ 2 ^ 53

def Groups.small (g : Groups) : Bool :=
  [g.major,g.minor,g.patch].all SemanticVersions.small && g.prerelease.all fun ids => ids.all fun id => !numericIdentifier id || SemanticVersions.small id

def Small (raw : String) : Prop := ∀ g ∈ pattern raw,g.small = true

instance (raw : String) : Decidable (Small raw) := inferInstanceAs (Decidable (∀ g ∈ pattern raw,g.small = true))

section
variable {a b : String} {g h : Groups} {m n : Nat} {x y : List Char}

theorem double_small (bound : n ≤ 2 ^ 53) : double n = n := by
  have representable : Representable n := ⟨n,0,bound,by simp⟩
  have exact_ : rounded n = n := le_antisymm (rounded_le representable le_rfl) (le_rounded representable le_rfl)
  rw [double,exact_,min_eq_left]
  calc (n : ℚ) ≤ 2 ^ 53 := by exact_mod_cast bound
    _ ≤ 2 ^ 1024 := pow_le_pow_right₀ one_le_two (by omega)

theorem part_sign (left : m ≤ 2 ^ 53) (right : n ≤ 2 ^ 53) (rest : Ordering) :
    (if double m ≠ double n then (if double m < double n then (-1 : Int) else 1) else sign rest) = sign ((cmp m n).then rest) := by
  rw [double_small left,double_small right]
  rcases lt_trichotomy m n with below | rfl | above
  · simp [below,below.ne,below.cmp_eq_lt,sign]
  · simp
  · simp [above.not_gt,above.ne',above.cmp_eq_gt,sign]

def SmallIdentifiers (ids : List (List Char)) : Prop := ∀ id ∈ ids,numericIdentifier id = true → number id ≤ 2 ^ 53

theorem identifier_number (numeric : numericIdentifier x = true) : identifier x = toLex (.inl (number x)) := if_pos numeric

theorem identifier_word (other : ¬numericIdentifier x = true) : identifier x = toLex (.inr x) := if_neg other

theorem identifier_sign (left : numericIdentifier x = true → number x ≤ 2 ^ 53) (right : numericIdentifier y = true → number y ≤ 2 ^ 53) :
    ∃ o,comparePrereleaseIdentifier x y = sign o ∧ o.Compares (identifier x) (identifier y) := by
  unfold comparePrereleaseIdentifier
  by_cases first : numericIdentifier x <;> by_cases second : numericIdentifier y
  · refine ⟨cmp (number x) (number y),?_,?_⟩
    · simp only [first,second,double_small (left first),double_small (right second)]
      rcases lt_trichotomy (number x) (number y) with below | same | above
      · simp [below,below.cmp_eq_lt,sign]
      · simp [same,sign]
      · simp [above,above.not_gt,above.cmp_eq_gt,sign]
    · rw [identifier_number first,identifier_number second]
      rcases lt_trichotomy (number x) (number y) with below | same | above
      · rw [below.cmp_eq_lt]
        exact Sum.Lex.inl_lt_inl_iff.mpr below
      · rw [same,cmp_self_eq_eq]
        rfl
      · rw [above.cmp_eq_gt]
        exact Sum.Lex.inl_lt_inl_iff.mpr above
  · refine ⟨.lt,by simp [first,second,sign],?_⟩
    rw [identifier_number first,identifier_word second]
    exact Sum.Lex.inl_lt_inr _ _
  · refine ⟨.gt,by simp [first,second,sign],?_⟩
    rw [identifier_word first,identifier_number second]
    exact Sum.Lex.inl_lt_inr _ _
  · rw [identifier_word first,identifier_word second]
    rcases lt_trichotomy x y with below | rfl | above
    · exact ⟨.lt,by simp [second,below,below.ne,sign],Sum.Lex.inr_lt_inr_iff.mpr below⟩
    · exact ⟨.eq,by simp [first,sign],rfl⟩
    · exact ⟨.gt,by simp [first,above.ne',above.not_gt,sign],Sum.Lex.inr_lt_inr_iff.mpr above⟩

theorem identifiers_sign : ∀ {xs ys : List (List Char)},SmallIdentifiers xs → SmallIdentifiers ys →
    ∃ o,compareIdentifiers xs ys = sign o ∧ o.Compares (xs.map identifier) (ys.map identifier) := by
  intro xs
  induction xs with
  | nil =>
    intro ys _ _
    cases ys with
    | nil => exact ⟨.eq,rfl,rfl⟩
    | cons y ys => exact ⟨.lt,rfl,List.Lex.nil⟩
  | cons x xs ih =>
    intro ys left right
    cases ys with
    | nil => exact ⟨.gt,rfl,List.Lex.nil⟩
    | cons y ys =>
      obtain ⟨first,here,compares⟩ := identifier_sign (left x List.mem_cons_self) (right y List.mem_cons_self)
      obtain ⟨rest,there,others⟩ := ih (fun id member => left id (List.mem_cons_of_mem _ member))
        fun id member => right id (List.mem_cons_of_mem _ member)
      refine ⟨first.then rest,?_,compares_cons compares others⟩
      simp only [compareIdentifiers,here,there,sign_then]

theorem prerelease_sign {p q : Option (List (List Char))} (left : ∀ ids ∈ p,SmallIdentifiers ids) (right : ∀ ids ∈ q,SmallIdentifiers ids) :
    ∃ o,comparePrerelease p q = sign o ∧ o.Compares (identifiers p) (identifiers q) := by
  cases p with
  | none => cases q with
    | none => exact ⟨.eq,rfl,rfl⟩
    | some ys => exact ⟨.gt,rfl,WithTop.coe_lt_top _⟩
  | some xs => cases q with
    | none => exact ⟨.lt,rfl,WithTop.coe_lt_top _⟩
    | some ys =>
      obtain ⟨o,same,compares⟩ := identifiers_sign (left xs rfl) (right ys rfl)
      refine ⟨o,same,?_⟩
      cases o with
      | lt | gt => exact WithTop.coe_lt_coe.mpr compares
      | eq => exact congrArg WithTop.some compares

theorem small_parts (exact_ : g.small = true) : number g.major ≤ 2 ^ 53 ∧ number g.minor ≤ 2 ^ 53 ∧ number g.patch ≤ 2 ^ 53 ∧
    ∀ ids ∈ g.prerelease,SmallIdentifiers ids := by
  simp only [Groups.small,small,List.all_cons,List.all_nil,Bool.and_true,Bool.and_eq_true,decide_eq_true_eq,Option.all_eq_true] at exact_
  obtain ⟨⟨major,minor,patch⟩,identifiers⟩ := exact_
  refine ⟨major,minor,patch,fun ids found id member numeric => ?_⟩
  simpa [numeric] using List.all_eq_true.mp (identifiers ids found) id member

theorem compares_coe {o : Ordering} {x y : Rank} (compares : o.Compares x y) : o.Compares (x : WithBot Rank) y := by
  cases o with
  | lt | gt => exact WithBot.coe_lt_coe.mpr compares
  | eq => exact congrArg WithBot.some compares

section
variable (first : pattern a ≠ none) (second : pattern b ≠ none) (left : Small a) (right : Small b)
include first second left right

theorem compareSemver_sign : ∃ o,compareSemver a b = some (sign o) ∧ o.Compares (precedence a) (precedence b) := by
  obtain ⟨g,first⟩ := Option.ne_none_iff_exists'.mp first
  obtain ⟨h,second⟩ := Option.ne_none_iff_exists'.mp second
  obtain ⟨major,minor,patch,identifiers⟩ := small_parts (left g first)
  obtain ⟨major',minor',patch',identifiers'⟩ := small_parts (right h second)
  obtain ⟨last,same,compares⟩ := prerelease_sign identifiers identifiers'
  obtain ⟨o,parts,ranks⟩ : ∃ o,o = (cmp (number g.major) (number h.major)).then ((cmp (number g.minor) (number h.minor)).then
      ((cmp (number g.patch) (number h.patch)).then last)) ∧ o.Compares g.version.rank h.version.rank :=
    ⟨_,rfl,compares_rank (cmp_compares _ _) (cmp_compares _ _) (cmp_compares _ _) compares⟩
  refine ⟨o,?_,?_⟩
  · simp only [compareSemver,parseSemver,first,second,Option.map_some,compareParsed,same]
    rw [part_sign patch patch',part_sign minor minor',part_sign major major',parts]
  · simp only [precedence,first,second]
    exact compares_coe ranks

theorem compareSemver_pos : (compareSemver a b).any (0 < ·) = true ↔ precedence b < precedence a := by
  obtain ⟨o,same,compares⟩ := compareSemver_sign first second left right
  rw [same,Option.any_some,decide_eq_true_eq,sign_pos]
  exact compares.eq_gt

theorem compareSemver_le (n : Int) : (compareSemver a b).getD n ≤ 0 ↔ precedence a ≤ precedence b := by
  obtain ⟨o,same,compares⟩ := compareSemver_sign first second left right
  rw [same,Option.getD_some,← not_lt,sign_pos,compares.eq_gt,not_lt]

end

end

/-- Among versions that can be read and whose numbers are exact doubles, the comparison is a total preorder. -/
theorem compareSemver_preorder (a b c : String) (first : pattern a ≠ none) (second : pattern b ≠ none) (third : pattern c ≠ none)
    (left : Small a) (middle : Small b) (right : Small c) :
    compareSemver b a = (compareSemver a b).map (-·) ∧ (compareSemver a b).isSome ∧
      ((compareSemver a b).getD 1 ≤ 0 → (compareSemver b c).getD 1 ≤ 0 → (compareSemver a c).getD 1 ≤ 0) := by
  refine ⟨?_,?_,?_⟩
  · obtain ⟨o,forth,compares⟩ := compareSemver_sign first second left middle
    obtain ⟨p,back,compares'⟩ := compareSemver_sign second first middle left
    have same : p = o.swap := compares'.inj compares.swap
    rw [forth,back,same,Option.map_some,sign_swap]
  · obtain ⟨o,forth,_⟩ := compareSemver_sign first second left middle
    rw [forth,Option.isSome_some]
  · intro low high
    rw [compareSemver_le first second left middle] at low
    rw [compareSemver_le second third middle right] at high
    exact (compareSemver_le first third left right 1).mpr (low.trans high)

theorem compareSemver_preorder_candidate : compareSemver "1.0.0" "1.0.0-rc.1" = (compareSemver "1.0.0-rc.1" "1.0.0").map (-·) :=
  (compareSemver_preorder "1.0.0-rc.1" "1.0.0" "1.2.0" (by decide +kernel) (by decide +kernel) (by decide +kernel) (by decide +kernel)
    (by decide +kernel) (by decide +kernel)).1

end Tgtc.SemanticVersions
