import Mathlib.Algebra.Ring.Int.Defs
import Mathlib.Algebra.Ring.Nat
import Mathlib.Data.List.Sort

/-!
# Go's integers, integer parsers and sort

`int64` arithmetic wraps; `strconv.ParseUint` and `strconv.ParseInt` return a value together
with an error, and the value they return with a range error is the nearest bound, not zero.
Both facts are visible to callers that ignore the error. `big.Int.SetString` accepts a sign
and any number of digits. `sort.Slice` is not stable, so which of two equal elements comes
first is a parameter.
-/

namespace Go

/-- The value of an integer expression in `int64`. -/
def wrapInt64 (n : Int) : Int := n.bmod (2 ^ 64)

/-- The range of `int64`. -/
def InInt64 (n : Int) : Prop := -2 ^ 63 ≤ n ∧ n < 2 ^ 63

instance (n : Int) : Decidable (InInt64 n) := inferInstanceAs (Decidable (_ ∧ _))

/-- Arithmetic that stays in range does not wrap. -/
theorem wrapInt64_of_inInt64 {n : Int} (inside : InInt64 n) : wrapInt64 n = n := by
  obtain ⟨low, high⟩ := inside
  exact Int.bmod_eq_of_le (by omega) (by omega)

/-- The wrapped value by its remainder. -/
theorem wrapInt64_eq (n : Int) :
    wrapInt64 n = if n % 2 ^ 64 < 2 ^ 63 then n % 2 ^ 64 else n % 2 ^ 64 - 2 ^ 64 := by
  simp [wrapInt64, Int.bmod]

/-- A sum of wrapped values wraps as the sum of the values. -/
theorem wrapInt64_add (m n : Int) : wrapInt64 (wrapInt64 m + n) = wrapInt64 (m + n) :=
  Int.bmod_add_bmod

/-- The range of `int64` contains every wrapped value. -/
theorem inInt64_wrapInt64 (n : Int) : InInt64 (wrapInt64 n) := by
  rw [wrapInt64_eq]
  unfold InInt64
  split <;> omega

/-- The nearest value in `int64`, as `time.Time.Sub` returns it for a distance that does not fit. -/
def clampInt64 (n : Int) : Int := max (-2 ^ 63) (min n (2 ^ 63 - 1))

/-- Why a parser refused its input. -/
inductive NumError where
  /-- The input is not a numeral: `strconv.ErrSyntax`. -/
  | format
  /-- The numeral does not fit: `strconv.ErrRange`. -/
  | range
  deriving DecidableEq, Repr

/-- The value of a decimal digit. -/
def digit (c : Char) : Option Nat :=
  if c.isDigit then some (c.toNat - '0'.toNat) else none

/-- The digit loop of `strconv.ParseUint` in base 10: it stops at the first character that
is no digit and at the first digit that exceeds the maximum. -/
def parseDigits (maxVal : Nat) : List Char → Nat → Nat × Option NumError
  | [], n => (n, none)
  | c :: rest, n =>
    match digit c with
    | none => (0, some .format)
    | some d =>
      if maxVal < n * 10 + d then (maxVal, some .range)
      else parseDigits maxVal rest (n * 10 + d)

/-- `strconv.ParseUint(s, 10, bitSize)`. -/
def parseUint (s : List Char) (bitSize : Nat) : Nat × Option NumError :=
  if s = [] then (0, some .format) else parseDigits (2 ^ bitSize - 1) s 0

/-- The sign of a numeral and what follows it. -/
def splitSign : List Char → Bool × List Char
  | '+' :: rest => (false, rest)
  | '-' :: rest => (true, rest)
  | rest => (false, rest)

/-- `strconv.ParseInt(s, 10, 64)`. -/
def parseInt (s : String) : Int × Option NumError :=
  if s.toList = [] then (0, some .format)
  else
    let (neg, digits) := splitSign s.toList
    let (un, err) := parseUint digits 64
    if err = some .format then (0, err)
    else if !neg && 2 ^ 63 ≤ un then (2 ^ 63 - 1, some .range)
    else if neg && 2 ^ 63 < un then (-2 ^ 63, some .range)
    else (if neg then -un else un, none)

/-- The digits of `big.Int.SetString`, of any number. -/
def parseBigDigits : List Char → Nat → Option Nat
  | [], n => some n
  | c :: rest, n =>
    match digit c with
    | none => none
    | some d => parseBigDigits rest (n * 10 + d)

/-- `new(big.Int).SetString(s, 10)`. -/
def bigSetString (s : String) : Option Int :=
  let (neg, digits) := splitSign s.toList
  if digits = [] then none
  else (parseBigDigits digits 0).map fun n : Nat => if neg then -(n : Int) else n

/-- The digits read later only add to the number read so far. -/
theorem le_of_parseBigDigits {l : List Char} {n m : Nat} (parsed : parseBigDigits l n = some m) :
    n ≤ m := by
  induction l generalizing n with
  | nil => exact Nat.le_of_eq (Option.some.inj parsed)
  | cons c rest ih =>
    unfold parseBigDigits at parsed
    cases value : digit c with
    | none => simp [value] at parsed
    | some d =>
      have later : n * 10 + d ≤ m := ih (by simpa [value] using parsed)
      omega

/-- The bounded digit loop reads the numbers within its bound. -/
theorem parseDigits_of_parseBigDigits {l : List Char} {n m maxVal : Nat}
    (parsed : parseBigDigits l n = some m) (fits : m ≤ maxVal) :
    parseDigits maxVal l n = (m, none) := by
  induction l generalizing n with
  | nil =>
    have same : n = m := Option.some.inj parsed
    rw [parseDigits, same]
  | cons c rest ih =>
    unfold parseBigDigits at parsed
    unfold parseDigits
    cases value : digit c with
    | none => simp [value] at parsed
    | some d =>
      have rest' : parseBigDigits rest (n * 10 + d) = some m := by simpa [value] using parsed
      have below : ¬maxVal < n * 10 + d := by
        have := le_of_parseBigDigits rest'
        omega
      simp only [if_neg below]
      exact ih rest'

/-- `strconv.ParseInt` reads the integers of `int64`. -/
theorem parseInt_of_bigSetString {s : String} {v : Int} (integer : bigSetString s = some v)
    (inside : InInt64 v) : parseInt s = (v, none) := by
  obtain ⟨low, high⟩ := inside
  unfold bigSetString at integer
  rcases split : splitSign s.toList with ⟨neg, digits⟩
  simp only [split] at integer
  by_cases empty : digits = []
  · simp [empty] at integer
  rw [if_neg empty, Option.map_eq_some_iff] at integer
  obtain ⟨m, parsed, value⟩ := integer
  have nonempty : s.toList ≠ [] := by
    intro none
    rw [none] at split
    exact empty (congrArg Prod.snd split).symm
  have bound : m ≤ 2 ^ 63 := by cases neg <;> simp at value <;> omega
  have read : parseUint digits 64 = (m, none) := by
    rw [parseUint, if_neg empty]
    exact parseDigits_of_parseBigDigits parsed (by omega)
  unfold parseInt
  simp only [if_neg nonempty, split, read]
  cases neg with
  | false =>
    have same : (m : Int) = v := value
    have fits : ¬2 ^ 63 ≤ m := by omega
    simp only [fits, decide_false, Bool.and_false, Bool.false_and, Bool.false_eq_true, if_false,
      reduceCtorEq]
    exact congrArg (·, none) same
  | true =>
    have same : -(m : Int) = v := value
    have fits : ¬2 ^ 63 < m := by omega
    simp only [fits, decide_false, Bool.and_false, Bool.not_true, Bool.false_and,
      Bool.false_eq_true, if_false, if_true, reduceCtorEq]
    exact congrArg (·, none) same

/-- A text of digits is read as the number they stand for. -/
theorem parseBigDigits_of_digits {l : List Char} (digits : ∀ c ∈ l, c.isDigit = true) (n : Nat) :
    parseBigDigits l n = some (Nat.ofDigitChars 10 l n) := by
  induction l generalizing n with
  | nil => rfl
  | cons c rest ih =>
    have here : digit c = some (c.toNat - '0'.toNat) := if_pos (digits c List.mem_cons_self)
    rw [parseBigDigits, here, Nat.ofDigitChars_cons, Nat.mul_comm]
    exact ih (fun d member => digits d (List.mem_cons_of_mem _ member)) _

/-- A text that starts with a digit has no sign. -/
theorem splitSign_of_digit {c : Char} {rest : List Char} (digit : c.isDigit = true) :
    splitSign (c :: rest) = (false, c :: rest) := by
  unfold splitSign
  split
  · rename_i same
    cases same
    cases digit
  · rename_i same
    cases same
    cases digit
  · rfl

/-- What the bounded digit loop reads is the number of the digits, within the bound. -/
theorem parseBigDigits_of_parseDigits {l : List Char} {n m maxVal : Nat}
    (parsed : parseDigits maxVal l n = (m, none)) (start : n ≤ maxVal) :
    parseBigDigits l n = some m ∧ m ≤ maxVal := by
  induction l generalizing n with
  | nil =>
    have same : n = m := congrArg Prod.fst parsed
    exact ⟨congrArg some same, same ▸ start⟩
  | cons c rest ih =>
    unfold parseDigits at parsed
    unfold parseBigDigits
    cases value : digit c with
    | none => simp [value] at parsed
    | some d =>
      simp only [value] at parsed
      by_cases above : maxVal < n * 10 + d
      · rw [if_pos above] at parsed
        cases parsed
      · rw [if_neg above] at parsed
        exact ih parsed (not_lt.mp above)

/-- A number beyond the bound is answered with the bound. -/
theorem eq_of_parseDigits_range {l : List Char} {n m maxVal : Nat}
    (parsed : parseDigits maxVal l n = (m, some .range)) : m = maxVal := by
  induction l generalizing n with
  | nil => cases parsed
  | cons c rest ih =>
    unfold parseDigits at parsed
    cases value : digit c with
    | none => simp [value] at parsed
    | some d =>
      simp only [value] at parsed
      by_cases above : maxVal < n * 10 + d
      · rw [if_pos above] at parsed
        exact (congrArg Prod.fst parsed).symm
      · rw [if_neg above] at parsed
        exact ih parsed

/-- What `strconv.ParseUint` reads is the number of a text without a sign. -/
theorem bigSetString_of_parseUint {s : String} {n : Nat}
    (parsed : parseUint s.toList 64 = (n, none)) :
    bigSetString s = some (n : Int) ∧ n < 2 ^ 64 := by
  unfold parseUint at parsed
  by_cases empty : s.toList = []
  · rw [if_pos empty] at parsed
    cases parsed
  · rw [if_neg empty] at parsed
    obtain ⟨c, rest, chars⟩ := List.exists_cons_of_ne_nil empty
    obtain ⟨read, bound⟩ := parseBigDigits_of_parseDigits parsed (Nat.zero_le _)
    have first : c.isDigit = true := by
      rw [chars, parseBigDigits] at read
      by_contra other
      have none : digit c = none := if_neg other
      simp [none] at read
    have sign : splitSign s.toList = (false, s.toList) := by
      rw [chars]
      exact splitSign_of_digit first
    refine ⟨?_, by omega⟩
    rw [bigSetString, sign]
    simp only [if_neg empty, read]
    rfl

/-- What `strconv.ParseInt` reads is the integer of the text. -/
theorem bigSetString_of_parseInt {s : String} {v : Int} (parsed : parseInt s = (v, none)) :
    bigSetString s = some v ∧ InInt64 v := by
  unfold parseInt at parsed
  unfold bigSetString
  by_cases empty : s.toList = []
  · rw [if_pos empty] at parsed
    cases parsed
  rw [if_neg empty] at parsed
  rcases split : splitSign s.toList with ⟨neg, digits⟩
  rcases unsigned : parseUint digits 64 with ⟨un, err⟩
  simp only [split, unsigned] at parsed ⊢
  by_cases format : err = some .format
  · rw [if_pos format, format] at parsed
    cases parsed
  rw [if_neg format] at parsed
  by_cases high : (!neg && decide (2 ^ 63 ≤ un)) = true
  · rw [if_pos high] at parsed
    cases parsed
  rw [if_neg high] at parsed
  by_cases low : (neg && decide (2 ^ 63 < un)) = true
  · rw [if_pos low] at parsed
    cases parsed
  rw [if_neg low] at parsed
  have value : (if neg then -(un : Int) else un) = v := congrArg Prod.fst parsed
  unfold parseUint at unsigned
  by_cases nothing : digits = []
  · rw [if_pos nothing] at unsigned
    cases unsigned
    exact absurd rfl format
  rw [if_neg nothing] at unsigned ⊢
  cases err with
  | some err =>
    cases err with
    | format => exact absurd rfl format
    | range =>
      -- the bound of the digits is beyond both ends of the range
      have most := eq_of_parseDigits_range unsigned
      cases neg <;> simp [most] at high low
  | none =>
    rw [(parseBigDigits_of_parseDigits unsigned (Nat.zero_le _)).1]
    refine ⟨congrArg some value, ?_⟩
    unfold InInt64
    cases neg with
    | false =>
      simp only [Bool.not_false, Bool.true_and, decide_eq_true_eq, not_le] at high
      simp only [Bool.false_eq_true, if_false] at value
      omega
    | true =>
      simp only [Bool.true_and, decide_eq_true_eq, not_lt] at low
      simp only [if_true] at value
      omega

/-- The digits of a number are digits. -/
theorem digits_repr (n : Nat) : ∀ c ∈ n.repr.toList, c.isDigit = true := by
  intro c member
  rw [Nat.toList_repr] at member
  exact Nat.isDigit_of_mem_toDigits (by decide) (by decide) member

/-- `big.Int.SetString` reads a number as it is written. -/
theorem bigSetString_natRepr (n : Nat) : bigSetString n.repr = some (n : Int) := by
  obtain ⟨c, rest, chars⟩ : ∃ c rest, n.repr.toList = c :: rest :=
    List.exists_cons_of_ne_nil (by rw [Nat.toList_repr]; exact Nat.toDigits_ne_nil)
  have digits := digits_repr n
  have value : Nat.ofDigitChars 10 n.repr.toList 0 = n := by
    rw [Nat.toList_repr, Nat.ofDigitChars_ten_toDigits]
  have sign : splitSign n.repr.toList = (false, n.repr.toList) := by
    rw [chars]
    exact splitSign_of_digit (digits c (by rw [chars]; exact List.mem_cons_self))
  have nonempty : n.repr.toList ≠ [] := by rw [chars]; exact List.cons_ne_nil _ _
  rw [bigSetString, sign]
  simp only [if_neg nonempty, parseBigDigits_of_digits digits, value]
  rfl

/-- `big.Int.SetString` reads an integer as it is written. -/
theorem bigSetString_repr (v : Int) : bigSetString v.repr = some v := by
  rw [Int.repr_eq_if]
  split
  · rw [bigSetString_natRepr]
    congr 1
    omega
  · have chars : ("-" ++ (-v).toNat.repr).toList = '-' :: (-v).toNat.repr.toList := by
      rw [String.toList_append]
      rfl
    have nonempty : (-v).toNat.repr.toList ≠ [] := by
      rw [Nat.toList_repr]
      exact Nat.toDigits_ne_nil
    have value : Nat.ofDigitChars 10 (-v).toNat.repr.toList 0 = (-v).toNat := by
      rw [Nat.toList_repr, Nat.ofDigitChars_ten_toDigits]
    rw [bigSetString, chars]
    simp only [splitSign, if_neg nonempty, parseBigDigits_of_digits (digits_repr _), value,
      Option.map_some, if_true]
    congr 1
    omega

/-- `big.Int.SetString` refuses digits followed by something else. -/
theorem parseBigDigits_append {l : List Char} (digits : ∀ c ∈ l, c.isDigit = true) {other : Char}
    (stop : digit other = none) (rest : List Char) (n : Nat) :
    parseBigDigits (l ++ other :: rest) n = none := by
  induction l generalizing n with
  | nil => simp [parseBigDigits, stop]
  | cons c l ih =>
    have here : digit c = some (c.toNat - '0'.toNat) := if_pos (digits c List.mem_cons_self)
    rw [List.cons_append, parseBigDigits, here]
    exact ih (fun d member => digits d (List.mem_cons_of_mem _ member)) _

/-- The bounded digit loop refuses digits followed by something else, with the bound when it is
exceeded before. -/
theorem parseDigits_append {l : List Char} (digits : ∀ c ∈ l, c.isDigit = true) {other : Char}
    (stop : digit other = none) (rest : List Char) (maxVal n : Nat) (start : n ≤ maxVal) :
    parseDigits maxVal (l ++ other :: rest) n =
      if Nat.ofDigitChars 10 l n ≤ maxVal then (0, some .format) else (maxVal, some .range) := by
  induction l generalizing n with
  | nil => simp [parseDigits, stop, start]
  | cons c l ih =>
    have later : ∀ d ∈ l, d.isDigit = true :=
      fun d member => digits d (List.mem_cons_of_mem _ member)
    have here : digit c = some (c.toNat - '0'.toNat) := if_pos (digits c List.mem_cons_self)
    rw [List.cons_append, parseDigits, here, Nat.ofDigitChars_cons, Nat.mul_comm 10 n]
    by_cases above : maxVal < n * 10 + (c.toNat - '0'.toNat)
    · have grown := le_of_parseBigDigits
        (parseBigDigits_of_digits later (n * 10 + (c.toNat - '0'.toNat)))
      simp only [if_pos above]
      rw [if_neg (by omega)]
    · simp only [if_neg above]
      exact ih later _ (by omega)

/-- Different integers are written differently. -/
theorem repr_injective : Function.Injective Int.repr := by
  intro v w same
  have read : some v = some w := by rw [← bigSetString_repr, same, bigSetString_repr]
  exact Option.some.inj read

/-- An integer is written with digits and a minus sign. -/
theorem mem_repr {v : Int} {c : Char} (member : c ∈ v.repr.toList) :
    c.isDigit = true ∨ c = '-' := by
  rw [Int.repr_eq_if] at member
  split at member
  · exact .inl (digits_repr _ c member)
  · rw [String.toList_append] at member
    rcases List.mem_append.mp member with sign | digits
    · exact .inr (List.mem_singleton.mp sign)
    · exact .inl (digits_repr _ c digits)

/-- `unicode.IsSpace`. -/
def isSpace (c : Char) : Bool :=
  let n := c.toNat
  (9 ≤ n && n ≤ 13) || n = 0x20 || n = 0x85 || n = 0xA0 || n = 0x1680 ||
    (0x2000 ≤ n && n ≤ 0x200a) || n = 0x2028 || n = 0x2029 || n = 0x202f || n = 0x205f ||
    n = 0x3000

/-- `strings.TrimSpace`. -/
def trimSpace (s : String) : String :=
  String.ofList ((s.toList.dropWhile isSpace).reverse.dropWhile isSpace).reverse

/-- `sort.Slice` with a given `less`: some arrangement of the elements in which no element is
less than an earlier one. -/
structure SortSlice {α : Type} (less : α → α → Bool) where
  /-- The arrangement. -/
  sort : List α → List α
  /-- It has the same elements. -/
  perm : ∀ l, (sort l).Perm l
  /-- It is in order. -/
  sorted : ∀ l, (sort l).Pairwise fun earlier later => less later earlier = false

/-- The `less` that compares a number of each element. -/
def byRank {α : Type} (rank : α → Int) (left right : α) : Bool := rank left < rank right

namespace SortSlice

variable {α : Type} {rank : α → Int}

/-- A stable sort is one of the arrangements. -/
def stable (rank : α → Int) : SortSlice (byRank rank) where
  sort l := l.insertionSort fun left right => rank left ≤ rank right
  perm l := List.perm_insertionSort _ l
  sorted l := by
    have total : Std.Total fun left right : α => rank left ≤ rank right :=
      ⟨fun left right => le_total _ _⟩
    have trans : IsTrans α fun left right => rank left ≤ rank right :=
      ⟨fun _ _ _ first second => first.trans second⟩
    refine (List.pairwise_insertionSort _ l).imp fun {left right} ordered => ?_
    simpa [byRank] using ordered

/-- The numbers do not decrease. -/
theorem pairwise_le (order : SortSlice (byRank rank)) (l : List α) :
    (order.sort l).Pairwise fun earlier later => rank earlier ≤ rank later :=
  (order.sorted l).imp fun {earlier later} ordered => by simpa [byRank] using ordered

/-- Elements with different numbers have one arrangement. -/
theorem sort_eq_of_perm (order order' : SortSlice (byRank rank)) {l l' : List α}
    (perm : l.Perm l') (distinct : ∀ x ∈ l, ∀ y ∈ l, rank x = rank y → x = y) :
    order.sort l = order'.sort l' := by
  have perms := (order.perm l).trans (perm.trans (order'.perm l').symm)
  refine perms.eq_of_pairwise ?_ (order.pairwise_le l) (order'.pairwise_le l')
  intro x y here there first second
  have x_mem := (order.perm l).mem_iff.mp here
  have y_mem := perm.mem_iff.mpr ((order'.perm l').mem_iff.mp there)
  exact distinct x x_mem y y_mem (le_antisymm first second)

/-- Elements with different numbers are arranged before a change that keeps the order of their
numbers as after it. -/
theorem sort_map {β : Type} {rank' : β → Int} (order : SortSlice (byRank rank))
    (order' : SortSlice (byRank rank')) (change : α → β) {l : List α}
    (distinct : ∀ x ∈ l, ∀ y ∈ l, rank x = rank y → x = y)
    (increasing : ∀ x ∈ l, ∀ y ∈ l, rank x < rank y → rank' (change x) < rank' (change y)) :
    order'.sort (l.map change) = (order.sort l).map change := by
  have inside {x : α} (member : x ∈ order.sort l) : x ∈ l := (order.perm l).mem_iff.mp member
  have perms := (order'.perm (l.map change)).trans ((order.perm l).map change).symm
  refine perms.eq_of_pairwise ?_ (order'.pairwise_le _) ?_
  · intro x y here there first second
    obtain ⟨x, x_mem, rfl⟩ := List.mem_map.mp ((order'.perm _).mem_iff.mp here)
    obtain ⟨y, y_mem, rfl⟩ := List.mem_map.mp there
    have same := le_antisymm first second
    rcases lt_trichotomy (rank x) (rank y) with less | equal | more
    · exact absurd same (increasing x x_mem y (inside y_mem) less).ne
    · rw [distinct x x_mem y (inside y_mem) equal]
    · exact absurd same (increasing y (inside y_mem) x x_mem more).ne'
  · refine List.pairwise_map.mpr ((order.pairwise_le l).imp_of_mem ?_)
    intro x y x_mem y_mem ordered
    rcases ordered.lt_or_eq with less | equal
    · exact (increasing x (inside x_mem) y (inside y_mem) less).le
    · rw [distinct x (inside x_mem) y (inside y_mem) equal]

/-- The stable sort in which one element comes before all others with its number. -/
def favouring [DecidableEq α] (rank : α → Int) (first : α) : SortSlice (byRank rank) where
  sort := (stable fun x => 2 * rank x + if x = first then 0 else 1).sort
  perm := (stable _).perm
  sorted l := by
    refine (pairwise_le (stable fun x => 2 * rank x + if x = first then 0 else 1) l).imp ?_
    intro earlier later ordered
    rw [byRank, decide_eq_false_iff_not]
    split at ordered <;> split at ordered <;> omega

/-- An element with the least number comes first if it is favoured. -/
theorem favouring_sort [DecidableEq α] {l : List α} {first : α} (member : first ∈ l)
    (least : ∀ x ∈ l, rank first ≤ rank x) :
    ∃ rest, (favouring rank first).sort l = first :: rest := by
  have there := ((favouring rank first).perm l).mem_iff.mpr member
  have ordered := pairwise_le (stable fun x => 2 * rank x + if x = first then 0 else 1) l
  change ((favouring rank first).sort l).Pairwise _ at ordered
  cases sorted : (favouring rank first).sort l with
  | nil =>
    rw [sorted] at there
    cases there
  | cons head rest =>
    rw [sorted] at there ordered
    have inside : head ∈ l :=
      ((favouring rank first).perm l).mem_iff.mp (sorted ▸ List.mem_cons_self)
    rcases List.mem_cons.mp there with rfl | later
    · exact ⟨rest, rfl⟩
    · have below := (List.pairwise_cons.mp ordered).1 first later
      have above := least head inside
      rw [if_pos rfl] at below
      by_cases same : head = first
      · exact ⟨rest, by rw [same]⟩
      · rw [if_neg same] at below
        omega

end SortSlice

end Go
