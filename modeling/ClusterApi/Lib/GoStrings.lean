import Mathlib

/-!
# Go's string functions

`strings.Split`, `strings.FieldsFunc`, `strings.Contains` and `strings.Index` for one character,
`strconv.Atoi` and `strconv.ParseInt` to 32 bits, over the characters of a string, and the
wrap-around of Go's `int` and `int32`.

Go counts positions in bytes. The characters looked for here are ASCII delimiters; positions in
characters and in bytes order them the same way, and a slice taken between two of them holds the
same text, so positions are counted in characters.
-/

namespace ClusterApi.Lib.GoStrings

/-- `strings.Split(s, sep)` for a one-character separator; never empty. -/
def Split (s : String) (sep : Char) : List String :=
  (s.toList.splitOn sep).map String.ofList

def FieldsFunc (s : String) (f : Char → Bool) : List String :=
  ((s.toList.splitOnP f).filter fun field => !field.isEmpty).map String.ofList

def Contains (s : String) (c : Char) : Bool := s.toList.contains c

def Index (s : String) (c : Char) : Nat := s.toList.idxOf c

def quote (s : String) : String := "\"" ++ s ++ "\""

def digitValue (c : Char) : Nat := c.toNat - '0'.toNat

def ofDigits (ds : List Char) : Nat := ds.foldl (fun n c => 10 * n + digitValue c) 0

/-- `strconv.Atoi` on a 64-bit target, base 10.

After an optional sign, `ParseUint` reads digits left to right: it reports a range error as soon as
the digits read exceed `2^64 - 1`, before it sees a later non-digit, and a syntax error at the first
non-digit otherwise; `ParseInt` then bounds the value to `int64`. -/
def Atoi (s : String) : Except String Int :=
  let syntaxError := "strconv.Atoi: parsing " ++ quote s ++ ": invalid syntax"
  let rangeError := "strconv.Atoi: parsing " ++ quote s ++ ": value out of range"
  let (neg, digits) : Bool × List Char :=
    match s.toList with
    | '-' :: rest => (true, rest)
    | '+' :: rest => (false, rest)
    | cs => (false, cs)
  let value := ofDigits (digits.takeWhile Char.isDigit)
  if digits.isEmpty then .error syntaxError
  else if 2 ^ 64 ≤ value then .error rangeError
  else if !digits.all Char.isDigit then .error syntaxError
  else if neg then
    if 2 ^ 63 < value then .error rangeError else .ok (-(value : Int))
  else
    if 2 ^ 63 ≤ value then .error rangeError else .ok value

/-- Go's 64-bit `int` arithmetic: the representative of `x` modulo `2^64` in `[-2^63, 2^63)`. -/
def int64 (x : Int) : Int := (x + 2 ^ 63) % 2 ^ 64 - 2 ^ 63

/-- Go's 32-bit `int32` arithmetic: the representative of `x` modulo `2^32` in `[-2^31, 2^31)`. -/
def int32 (x : Int) : Int := (x + 2 ^ 31) % 2 ^ 32 - 2 ^ 31

/-- `strconv.ParseInt(s, 10, 32)` when it succeeds: `Atoi`'s syntax, and the value bounded to
`int32`. -/
def ParseInt32 (s : String) : Option Int :=
  match Atoi s with
  | .ok value => if -2 ^ 31 ≤ value ∧ value < 2 ^ 31 then some value else none
  | .error _ => none

theorem int64_of_lt {x : Int} (h0 : -2 ^ 63 ≤ x) (h1 : x < 2 ^ 63) : int64 x = x := by
  unfold int64
  omega

/-! `int32` arithmetic is arithmetic modulo `2^32`: an operand that has wrapped gives the result
the exact operand gives, so a chain of `int32` operations wraps only once, at the end. -/

theorem int32_of_lt {x : Int} (h0 : -2 ^ 31 ≤ x) (h1 : x < 2 ^ 31) : int32 x = x := by
  unfold int32
  omega

@[simp] theorem int32_add_int32 (a b : Int) : int32 (int32 a + b) = int32 (a + b) := by
  unfold int32
  omega

@[simp] theorem int32_add_int32_right (a b : Int) : int32 (a + int32 b) = int32 (a + b) := by
  unfold int32
  omega

@[simp] theorem int32_sub_int32 (a b : Int) : int32 (int32 a - b) = int32 (a - b) := by
  unfold int32
  omega

@[simp] theorem int32_sub_int32_right (a b : Int) : int32 (a - int32 b) = int32 (a - b) := by
  unfold int32
  omega

theorem int32_bounds (x : Int) : -2 ^ 31 ≤ int32 x ∧ int32 x < 2 ^ 31 := by
  unfold int32
  omega

@[simp] theorem int32_int32 (x : Int) : int32 (int32 x) = int32 x := by
  unfold int32
  omega

theorem int32_modEq (x : Int) : int32 x ≡ x [ZMOD 2 ^ 32] := by
  unfold int32 Int.ModEq
  omega

theorem int32_eq_int32_iff {a b : Int} : int32 a = int32 b ↔ a ≡ b [ZMOD 2 ^ 32] := by
  unfold int32 Int.ModEq
  omega

theorem foldl_int32_add {α : Type*} (f : α → Int) (l : List α) (b : Int) :
    l.foldl (fun total x => int32 (total + f x)) (int32 b) = int32 (b + (l.map f).sum) := by
  induction l generalizing b with
  | nil => simp
  | cons x xs ih =>
    rw [List.foldl_cons, int32_add_int32, ih, List.map_cons, List.sum_cons, add_assoc]

theorem foldl_int32_add_zero {α : Type*} (f : α → Int) (l : List α) :
    l.foldl (fun total x => int32 (total + f x)) 0 = int32 (l.map f).sum := by
  have h := foldl_int32_add f l 0
  rwa [zero_add, show int32 0 = 0 by decide] at h

theorem Split_intercalate {sep : Char} {ls : List (List Char)} (hls : ls ≠ [])
    (hsep : ∀ l ∈ ls, sep ∉ l) :
    Split (String.ofList ([sep].intercalate ls)) sep = ls.map String.ofList := by
  unfold Split
  rw [String.toList_ofList, List.splitOn_intercalate sep hsep hls]

theorem Split_intercalate_strings {sep : Char} {s : String} (hs : s.toList = [sep])
    {ls : List String} (hls : ls ≠ []) (hsep : ∀ l ∈ ls, sep ∉ l.toList) :
    Split (s.intercalate ls) sep = ls := by
  have hjoin : s.intercalate ls = String.ofList ([sep].intercalate (ls.map String.toList)) := by
    rw [← hs, ← String.toList_intercalate, String.ofList_toList]
  rw [hjoin, Split_intercalate (by simpa using hls) (by simpa using hsep)]
  simp

theorem not_mem_of_mem_splitOnP {p : Char → Bool} {cs piece : List Char}
    (h : piece ∈ cs.splitOnP p) : ∀ c ∈ piece, p c = false := by
  induction cs generalizing piece with
  | nil => simp_all
  | cons c rest ih =>
    rw [List.splitOnP_cons_eq_if_modifyHead] at h
    split_ifs at h with hc
    · rcases List.mem_cons.mp h with rfl | h
      · simp
      · exact ih h
    · -- `c` joins the first piece of the rest
      obtain ⟨first, others, hsplit⟩ := List.exists_cons_of_ne_nil (List.splitOnP_ne_nil p rest)
      rw [hsplit, List.modifyHead_cons] at h
      rcases List.mem_cons.mp h with rfl | h
      · intro d hd
        rcases List.mem_cons.mp hd with rfl | hd
        · simpa using hc
        · exact ih (hsplit ▸ List.mem_cons_self) d hd
      · exact ih (hsplit ▸ List.mem_cons_of_mem first h)

theorem not_mem_of_mem_Split {s : String} {sep : Char} {piece : String}
    (h : piece ∈ Split s sep) : sep ∉ piece.toList := by
  obtain ⟨cs, hcs, rfl⟩ := List.mem_map.mp h
  intro hsep
  simpa using not_mem_of_mem_splitOnP hcs sep (by simpa using hsep)

theorem Index_append_cons {c : Char} {l₁ l₂ : List Char} (h : c ∉ l₁) :
    Index (String.ofList (l₁ ++ c :: l₂)) c = l₁.length := by
  unfold Index
  rw [String.toList_ofList, List.idxOf_append_of_notMem h, List.idxOf_cons_self, Nat.add_zero]

theorem Contains_iff {s : String} {c : Char} : Contains s c = true ↔ c ∈ s.toList := by
  simp [Contains]

theorem isDigit_ne_sign {c : Char} (h : c.isDigit = true) : c ≠ '-' ∧ c ≠ '+' := by
  constructor <;> rintro rfl <;> simp at h

theorem Atoi_digits {ds : List Char} (hne : ds ≠ []) (hdigits : ∀ c ∈ ds, c.isDigit = true)
    (hlt : ofDigits ds < 2 ^ 63) :
    Atoi (String.ofList ds) = .ok (ofDigits ds) := by
  obtain ⟨c, rest, rfl⟩ := List.exists_cons_of_ne_nil hne
  have hsign := isDigit_ne_sign (hdigits c List.mem_cons_self)
  have hrun : (c :: rest).takeWhile Char.isDigit = c :: rest :=
    List.takeWhile_eq_self_iff.mpr hdigits
  have hall : (c :: rest).all Char.isDigit = true := List.all_eq_true.mpr hdigits
  have hsplit : (match c :: rest with
      | '-' :: rest => (true, rest)
      | '+' :: rest => (false, rest)
      | cs => (false, cs) : Bool × List Char) = (false, c :: rest) := by
    split
    · exact absurd (List.cons.inj ‹_›).1 hsign.1
    · exact absurd (List.cons.inj ‹_›).1 hsign.2
    · rfl
  simp only [Atoi, String.toList_ofList, hsplit, hrun, hall]
  rw [if_neg (by simp), if_neg (by omega), if_neg (by simp), if_neg (by simp), if_neg (by omega)]

end ClusterApi.Lib.GoStrings
