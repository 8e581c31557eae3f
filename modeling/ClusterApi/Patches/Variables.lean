import ClusterApi.Api.Conversion
import ClusterApi.Lib.GoStrings

/-!
# Variable paths of ClusterClass patches

`GetVariableValue` reads the value a JSON patch takes from a variable path such as
`name[i].field[j]`: it splits the path at `.`, parses each segment with `parsePathSegment`, and
walks the variable's JSON value with fastjson's `Get` and `Array`. `getVariableName` is the part
of the path the ClusterClass webhook checks, and `calculateValue` is where the reconciler asks for
the value.

On a path of the grammar `name('[' digits ']')?('.' name('[' digits ']')?)*` the result is the
value at that path, and an error, never a panic, where there is none
(`GetVariableValue_selectors`). A segment is read only up to its first `]`
(`parsePathSegment_ignores_suffix`), and a segment whose `]` comes before its `[` asks for a slice
with inverted bounds, which panics (`parsePathSegment_panic_iff`).
-/

namespace ClusterApi.Api.Outcome

variable {α β : Type}

/-- Go's `v, err := call(); if err != nil { return nil, wrap(err) }`; a panic unwinds through. -/
def andThen (r : Outcome α) (wrap : String → String) (f : α → Outcome β) : Outcome β :=
  match r with
  | .ok v => f v
  | .error e => .error (wrap e)
  | .panic m => .panic m

@[simp] theorem ok_andThen {v : α} {wrap : String → String} {f : α → Outcome β} :
    (Outcome.ok v).andThen wrap f = f v := rfl

/-- A Go result that gives the value an `Option` holds, and an error, not a panic, where it holds
none. -/
structure Realizes (r : Outcome α) (o : Option α) : Prop where
  ok_iff : ∀ v, r = .ok v ↔ o = some v
  not_panic : ∀ m, r ≠ .panic m

theorem Realizes.ok (v : α) : (Outcome.ok v).Realizes (some v) :=
  ⟨fun _ => by simp, fun _ => by simp⟩

theorem Realizes.error (e : String) : (Outcome.error e : Outcome α).Realizes none :=
  ⟨fun _ => by simp, fun _ => by simp⟩

theorem Realizes.andThen {r : Outcome α} {o : Option α} (hr : r.Realizes o)
    (wrap : String → String) {f : α → Outcome β} {g : α → Option β}
    (hf : ∀ v, o = some v → (f v).Realizes (g v)) :
    (r.andThen wrap f).Realizes (o.bind g) := by
  cases r with
  | ok v =>
    have ho : o = some v := (hr.ok_iff v).mp rfl
    subst ho
    exact hf v rfl
  | error e =>
    have ho : o = none := by
      cases o with
      | none => rfl
      | some v => exact absurd ((hr.ok_iff v).mpr rfl) (by simp)
    subst ho
    exact Realizes.error _
  | panic m => exact absurd rfl (hr.not_panic m)

end ClusterApi.Api.Outcome

namespace ClusterApi.Patches.Variables

open ClusterApi.Api (Outcome)
open ClusterApi.Lib.GoStrings

inductive Value where
  | null
  | bool (b : Bool)
  | number (text : String)
  | string (s : String)
  | array (items : List Value)
  | object (fields : List (String × Value))
  deriving Repr

namespace Value

def typeName : Value → String
  | null => "null"
  | bool true => "true"
  | bool false => "false"
  | number _ => "number"
  | string _ => "string"
  | array _ => "array"
  | object _ => "object"

/-- fastjson's `Value.Get(key)`: an object's first field of that name, or an array's element at
the key read by `strconv.Atoi`. -/
def Get : Value → String → Option Value
  | object fields, key => fields.lookup key
  | array items, key =>
    match Atoi key with
    | .ok n => if n < 0 then none else items[n.toNat]?
    | .error _ => none
  | _, _ => none

def Array : Value → Except String (List Value)
  | array items => .ok items
  | v => .error ("value doesn't contain array; it contains " ++ v.typeName)

end Value

/-- A parsed path segment; `index` is Go's `*int`, `none` for `nil`. -/
structure pathSegment where
  path : String
  index : Option Int
  deriving DecidableEq, Repr

def pathSegment.HasIndex (p : pathSegment) : Bool := p.index.isSome

def leftArrayDelim : Char := '['

def rightArrayDelim : Char := ']'

def parsePathSegment (segment : String) : Outcome pathSegment :=
  let hasLeft := Contains segment leftArrayDelim
  let hasRight := Contains segment rightArrayDelim
  if (hasLeft && !hasRight) || (!hasLeft && hasRight) then
    .error ("failed to parse path segment " ++ quote segment)
  else if !hasLeft && !hasRight then
    .ok ⟨segment, none⟩
  else
    let lo := Index segment leftArrayDelim + 1
    let hi := Index segment rightArrayDelim
    -- `segment[lo:hi]` with its bounds inverted is a runtime panic in Go
    if hi < lo then
      .panic ("runtime error: slice bounds out of range [" ++ toString lo ++ ":" ++ toString hi ++ "]")
    else
      match Atoi (String.ofList ((segment.toList.take hi).drop lo)) with
      | .error e =>
        .error ("failed to parse array index in path segment " ++ quote segment ++ ": " ++ e)
      | .ok index =>
        if index < 0 then
          .error ("invalid array index " ++ toString index ++ " in path segment " ++ quote segment)
        else
          .ok ⟨String.ofList (segment.toList.take (Index segment leftArrayDelim)), some index⟩

def getVariableArrayElement (array : Value) (arrayPathSegment : pathSegment)
    (fullVariablePath : String) : Outcome Value :=
  match array.Array with
  | .error e =>
    .error ("variable " ++ quote fullVariablePath ++ " is invalid: failed to get array " ++
      quote arrayPathSegment.path ++ ": " ++ e)
  | .ok arr =>
    match arrayPathSegment.index with
    | none => .panic "runtime error: invalid memory address or nil pointer dereference"
    | some index =>
      -- `*index+1` is computed in Go's `int`: it wraps at the largest index `Atoi` reads
      if (arr.length : Int) < int64 (index + 1) then
        -- Go formats the pointer `arrayPathSegment.index` here and prints its address, which the
        -- model has not; it prints the index
        .error ("variable " ++ quote fullVariablePath ++ " is invalid: array does not have index " ++
          toString index)
      else if 0 ≤ index then
        match arr[index.toNat]? with
        | some element => .ok element
        | none => .panic ("runtime error: index out of range [" ++ toString index ++
            "] with length " ++ toString arr.length)
      else
        .panic ("runtime error: index out of range [" ++ toString index ++ "]")

def lookupSegments (variablePath : String) (value : Value) : List String → Outcome Value
  | [] => .ok value
  | p :: relativePath =>
    (parsePathSegment p).andThen
      (fun e => "variable " ++ quote variablePath ++ " has invalid syntax: " ++ e) fun pathSegment =>
      -- fastjson's `Exists` is `Get` giving a value
      match value.Get pathSegment.path with
      | none =>
        .error ("variable " ++ quote variablePath ++ " does not exist: failed to lookup segment " ++
          quote pathSegment.path)
      | some value =>
        if pathSegment.HasIndex then
          (getVariableArrayElement value pathSegment variablePath).andThen id fun value =>
            lookupSegments variablePath value relativePath
        else
          lookupSegments variablePath value relativePath

def GetVariableValue (vars : String → Option Value) (variablePath : String) : Outcome Value :=
  match Split variablePath '.' with
  | [] => .panic "runtime error: index out of range [0] with length 0"
  | variableName :: relativePath =>
    (parsePathSegment variableName).andThen
      (fun e => "variable " ++ quote variablePath ++ " is invalid: " ++ e) fun variableNameSegment =>
      match vars variableNameSegment.path with
      | none => .error ("variable " ++ quote variableName ++ " does not exist")
      | some value =>
        if relativePath.isEmpty && !variableNameSegment.HasIndex then
          .ok value
        else if variableNameSegment.HasIndex then
          -- with no relative path the element is returned as it is, as `lookupSegments` does
          (getVariableArrayElement value variableNameSegment variablePath).andThen id
            fun value => lookupSegments variablePath value relativePath
        else
          lookupSegments variablePath value relativePath

def getVariableName (variablePath : String) : Outcome String :=
  match FieldsFunc variablePath (fun r => r == '[' || r == '.') with
  | name :: _ => .ok name
  | [] => .panic "runtime error: index out of range [0] with length 0"

structure JSONPatchValue where
  Variable : String
  Template : String

structure JSONPatch where
  value : Option Value
  valueFrom : Option JSONPatchValue

section CalculateValue

-- `renderValueTemplate` runs a Go template over the variables; it is left a parameter
variable (renderValueTemplate : String → (String → Option Value) → Outcome Value)

def calculateValue (patch : JSONPatch) (vars : String → Option Value) : Outcome Value :=
  if patch.value.isNone && patch.valueFrom.isNone then
    .error "failed to calculate value: neither .value nor .valueFrom are set"
  else if patch.value.isSome && patch.valueFrom.isSome then
    .error "failed to calculate value: both .value and .valueFrom are set"
  else if patch.valueFrom.any fun vf => vf.Variable == "" && vf.Template == "" then
    .error ("failed to calculate value: .valueFrom is set, but neither .valueFrom.variable nor " ++
      ".valueFrom.template are set")
  else if patch.valueFrom.any fun vf => vf.Variable != "" && vf.Template != "" then
    .error ("failed to calculate value: .valueFrom is set, but both .valueFrom.variable and " ++
      ".valueFrom.template are set")
  else
    match patch.value, patch.valueFrom with
    | some value, _ => .ok value
    | none, some valueFrom =>
      if valueFrom.Variable != "" then
        (GetVariableValue vars valueFrom.Variable).andThen
          (fun e => "failed to calculate value: " ++ e) .ok
      else
        (renderValueTemplate valueFrom.Template vars).andThen
          (fun e => "failed to calculate value for template: " ++ e) .ok
    -- excluded by the first check; Go would dereference the nil `ValueFrom`
    | none, none => .panic "runtime error: invalid memory address or nil pointer dereference"

theorem andThen_ok_panic {r : Outcome Value} {wrap : String → String} {m : String}
    (h : r.andThen wrap .ok = .panic m) : r = .panic m := by
  cases r <;> simp_all [Outcome.andThen]

theorem calculateValue_panic {patch : JSONPatch} {vars : String → Option Value} {m : String}
    (h : calculateValue renderValueTemplate patch vars = .panic m) :
    ∃ valueFrom ∈ patch.valueFrom, GetVariableValue vars valueFrom.Variable = .panic m ∨
      renderValueTemplate valueFrom.Template vars = .panic m := by
  unfold calculateValue at h
  split_ifs at h with hnone
  rcases patch with ⟨value, valueFrom⟩
  cases value with
  | some value => simp at h
  | none =>
    cases valueFrom with
    | none => simp at hnone
    | some valueFrom =>
      refine ⟨valueFrom, rfl, ?_⟩
      dsimp only at h
      split_ifs at h
      · exact Or.inl (andThen_ok_panic h)
      · exact Or.inr (andThen_ok_panic h)

end CalculateValue

/-! ### Segments -/

theorem parsePathSegment_plain {name : List Char} (hleft : '[' ∉ name) (hright : ']' ∉ name) :
    parsePathSegment (String.ofList name) = .ok ⟨String.ofList name, none⟩ := by
  have hl : Contains (String.ofList name) leftArrayDelim = false := by
    simpa [Contains, leftArrayDelim] using hleft
  have hr : Contains (String.ofList name) rightArrayDelim = false := by
    simpa [Contains, rightArrayDelim] using hright
  simp [parsePathSegment, hl, hr]

theorem parsePathSegment_indexed {name ds rest : List Char} (hleft : '[' ∉ name)
    (hright : ']' ∉ name) (hne : ds ≠ []) (hdigits : ∀ c ∈ ds, c.isDigit = true)
    (hlt : ofDigits ds < 2 ^ 63) :
    parsePathSegment (String.ofList (name ++ '[' :: ds ++ ']' :: rest)) =
      .ok ⟨String.ofList name, some (ofDigits ds)⟩ := by
  have hdsright : ']' ∉ ds := fun h => by simpa using hdigits _ h
  have hl : Contains (String.ofList (name ++ '[' :: ds ++ ']' :: rest)) leftArrayDelim = true := by
    simp [Contains, leftArrayDelim]
  have hr : Contains (String.ofList (name ++ '[' :: ds ++ ']' :: rest)) rightArrayDelim = true := by
    simp [Contains, rightArrayDelim]
  have hlo : Index (String.ofList (name ++ '[' :: ds ++ ']' :: rest)) leftArrayDelim =
      name.length := by
    rw [List.append_assoc, List.cons_append, leftArrayDelim, Index_append_cons hleft]
  have hhi : Index (String.ofList (name ++ '[' :: ds ++ ']' :: rest)) rightArrayDelim =
      name.length + 1 + ds.length := by
    have : ']' ∉ name ++ '[' :: ds := by simp [hright, hdsright]
    rw [rightArrayDelim, Index_append_cons this]
    simp
    omega
  have hslice : ((name ++ '[' :: ds ++ ']' :: rest).take (name.length + 1 + ds.length)).drop
      (name.length + 1) = ds := by
    have hlist : name ++ '[' :: ds ++ ']' :: rest = ((name ++ ['[']) ++ ds) ++ ']' :: rest := by
      simp
    rw [hlist, List.take_left' (by simp; omega), List.drop_left' (by simp)]
  have hpath : (name ++ '[' :: ds ++ ']' :: rest).take name.length = name := by simp
  simp only [parsePathSegment, hl, hr, Bool.not_true, Bool.and_false, Bool.false_and,
    Bool.or_false, Bool.false_eq_true, ↓reduceIte, hlo, hhi, String.toList_ofList, hslice, hpath,
    Atoi_digits hne hdigits hlt]
  have hbounds : ¬ name.length + 1 + ds.length < name.length + 1 := by omega
  have hsign : ¬ (ofDigits ds : Int) < 0 := by omega
  rw [if_neg hbounds, if_neg hsign]

theorem parsePathSegment_ignores_suffix {name ds rest : List Char} (hleft : '[' ∉ name)
    (hright : ']' ∉ name) (hne : ds ≠ []) (hdigits : ∀ c ∈ ds, c.isDigit = true)
    (hlt : ofDigits ds < 2 ^ 63) :
    parsePathSegment (String.ofList (name ++ '[' :: ds ++ ']' :: rest)) =
      parsePathSegment (String.ofList (name ++ '[' :: ds ++ [']'])) := by
  rw [parsePathSegment_indexed hleft hright hne hdigits hlt,
    parsePathSegment_indexed hleft hright hne hdigits hlt]

theorem parsePathSegment_panic_iff (segment : String) :
    (∃ m, parsePathSegment segment = .panic m) ↔
      '[' ∈ segment.toList ∧ ']' ∈ segment.toList ∧
        segment.toList.idxOf ']' < segment.toList.idxOf '[' + 1 := by
  by_cases hl : '[' ∈ segment.toList <;> by_cases hr : ']' ∈ segment.toList
  · have hcl : Contains segment '[' = true := Contains_iff.mpr hl
    have hcr : Contains segment ']' = true := Contains_iff.mpr hr
    simp only [parsePathSegment, leftArrayDelim, rightArrayDelim, Index, hcl, hcr, Bool.not_true,
      Bool.and_false, Bool.false_and, Bool.or_false, Bool.false_eq_true, ↓reduceIte]
    by_cases hlt : segment.toList.idxOf ']' < segment.toList.idxOf '[' + 1
    · simp [hlt, hl, hr]
    · simp only [hlt, ↓reduceIte, hl, hr, true_and, iff_false, not_exists]
      intro m
      split
      · simp
      · split_ifs <;> simp
  all_goals
    have hcl : Contains segment '[' = decide ('[' ∈ segment.toList) := by simp [Contains]
    have hcr : Contains segment ']' = decide (']' ∈ segment.toList) := by simp [Contains]
    simp [parsePathSegment, leftArrayDelim, rightArrayDelim, hcl, hcr, hl, hr]

/-! ### Paths of the grammar -/

/-- One segment of the grammar `name('[' digits ']')?`: a name with none of `.`, `[`, `]`, and at
most one index of decimal digits, small enough that Go's `int` can add one to it. -/
structure Selector where
  name : List Char
  digits : Option (List Char)
  name_plain : ∀ c ∈ name, c ≠ '.' ∧ c ≠ '[' ∧ c ≠ ']'
  digits_number : ∀ ds ∈ digits, ds ≠ [] ∧ (∀ c ∈ ds, c.isDigit = true) ∧ ofDigits ds + 1 < 2 ^ 63

namespace Selector

def text (sel : Selector) : List Char :=
  match sel.digits with
  | none => sel.name
  | some ds => sel.name ++ '[' :: ds ++ [']']

def pathText (sels : List Selector) : String := String.ofList (['.'].intercalate (sels.map text))

def element (sel : Selector) (v : Value) : Option Value :=
  match sel.digits, v with
  | none, v => some v
  | some ds, .array items => items[ofDigits ds]?
  | some _, _ => none

def step (v : Value) (sel : Selector) : Option Value := (v.Get (String.ofList sel.name)).bind sel.element

def segment (sel : Selector) : pathSegment :=
  ⟨String.ofList sel.name, sel.digits.map fun ds => (ofDigits ds : Int)⟩

end Selector

def resolve (vars : String → Option Value) : List Selector → Option Value
  | [] => none
  | sel :: rest =>
    ((vars (String.ofList sel.name)).bind sel.element).bind fun v => rest.foldlM Selector.step v

theorem Selector.dot_not_mem_text (sel : Selector) : '.' ∉ sel.text := by
  intro h
  have hname : '.' ∉ sel.name := fun h => (sel.name_plain _ h).1 rfl
  unfold text at h
  split at h
  · exact hname h
  · rename_i ds hds
    have hdigits := (sel.digits_number ds hds).2.1
    have hdot : '.' ∉ ds := fun h => by simpa using hdigits _ h
    simp [hname, hdot] at h

theorem Selector.parsePathSegment_text (sel : Selector) :
    parsePathSegment (String.ofList sel.text) = .ok sel.segment := by
  have hleft : '[' ∉ sel.name := fun h => (sel.name_plain _ h).2.1 rfl
  have hright : ']' ∉ sel.name := fun h => (sel.name_plain _ h).2.2 rfl
  unfold text segment
  split
  · rename_i hds
    rw [parsePathSegment_plain hleft hright, hds]
    rfl
  · rename_i ds hds
    obtain ⟨hne, hdigits, hlt⟩ := sel.digits_number ds hds
    rw [parsePathSegment_indexed hleft hright hne hdigits (by omega), hds]
    rfl

@[simp] theorem Selector.segment_path (sel : Selector) : sel.segment.path = String.ofList sel.name :=
  rfl

theorem Selector.segment_HasIndex (sel : Selector) : sel.segment.HasIndex = sel.digits.isSome := by
  cases h : sel.digits <;> simp [segment, pathSegment.HasIndex, h]

theorem getVariableArrayElement_element (sel : Selector) (hindexed : sel.digits.isSome)
    (v : Value) (fullVariablePath : String) :
    (getVariableArrayElement v sel.segment fullVariablePath).Realizes (sel.element v) := by
  obtain ⟨ds, hds⟩ := Option.isSome_iff_exists.mp hindexed
  obtain ⟨-, -, hlt⟩ := sel.digits_number ds hds
  have hindex : sel.segment.index = some (ofDigits ds : Int) := by simp [Selector.segment, hds]
  -- `ds` is small enough that Go's `int` adds one to it exactly
  have hwrap : int64 ((ofDigits ds : Int) + 1) = (ofDigits ds : Int) + 1 :=
    int64_of_lt (by omega) (by omega)
  cases v
  case array items =>
    simp only [getVariableArrayElement, Value.Array, hindex, hwrap, Selector.element, hds]
    by_cases hlen : (items.length : Int) < (ofDigits ds : Int) + 1
    · rw [if_pos hlen, List.getElem?_eq_none (by omega)]
      exact Outcome.Realizes.error _
    · rw [if_neg hlen, if_pos (by omega), Int.toNat_natCast,
        List.getElem?_eq_getElem (by omega)]
      exact Outcome.Realizes.ok _
  all_goals
    simp only [getVariableArrayElement, Value.Array, Selector.element, hds]
    exact Outcome.Realizes.error _

theorem lookupSegments_selectors (variablePath : String) (rest : List Selector) (v : Value) :
    (lookupSegments variablePath v (rest.map fun sel => String.ofList sel.text)).Realizes
      (rest.foldlM Selector.step v) := by
  induction rest generalizing v with
  | nil => exact Outcome.Realizes.ok v
  | cons sel rest ih =>
    rw [List.map_cons, lookupSegments, sel.parsePathSegment_text, Outcome.ok_andThen,
      List.foldlM_cons, Selector.segment_path]
    simp only [Selector.step]
    cases hget : v.Get (String.ofList sel.name) with
    | none => exact Outcome.Realizes.error _
    | some w =>
      dsimp only
      by_cases hindexed : sel.digits.isSome
      · have hhas : sel.segment.HasIndex = true := by rw [sel.segment_HasIndex, hindexed]
        rw [if_pos hhas]
        exact (getVariableArrayElement_element sel hindexed w variablePath).andThen id
          fun u _ => ih u
      · have hnone : sel.digits = none := Option.not_isSome_iff_eq_none.mp hindexed
        have hhas : sel.segment.HasIndex = false := by rw [sel.segment_HasIndex, hnone]; rfl
        rw [if_neg (by simp [hhas])]
        simpa [Selector.element, hnone] using ih w

theorem GetVariableValue_selectors (vars : String → Option Value) (sel : Selector)
    (rest : List Selector) :
    (GetVariableValue vars (Selector.pathText (sel :: rest))).Realizes
      (resolve vars (sel :: rest)) := by
  have hsplit : Split (Selector.pathText (sel :: rest)) '.' =
      String.ofList sel.text :: rest.map fun sel => String.ofList sel.text := by
    rw [Selector.pathText, Split_intercalate (by simp)]
    · simp
    · intro l hl
      obtain ⟨s, -, rfl⟩ := List.mem_map.mp hl
      exact s.dot_not_mem_text
  rw [GetVariableValue, hsplit]
  dsimp only
  rw [sel.parsePathSegment_text, Outcome.ok_andThen, resolve, Selector.segment_path]
  cases hvar : vars (String.ofList sel.name) with
  | none => exact Outcome.Realizes.error _
  | some value =>
    dsimp only
    by_cases hindexed : sel.digits.isSome
    · have hhas : sel.segment.HasIndex = true := by rw [sel.segment_HasIndex, hindexed]
      rw [if_neg (by simp [hhas]), if_pos hhas]
      exact (getVariableArrayElement_element sel hindexed value _).andThen id
        fun u _ => lookupSegments_selectors _ rest u
    · have hnone : sel.digits = none := Option.not_isSome_iff_eq_none.mp hindexed
      have hhas : sel.segment.HasIndex = false := by rw [sel.segment_HasIndex, hnone]; rfl
      rw [if_neg (show ¬ sel.segment.HasIndex = true by simp [hhas])]
      by_cases hempty : rest = []
      · subst hempty
        simpa [hhas, Selector.element, hnone] using Outcome.Realizes.ok value
      · rw [if_neg (by simpa [hhas] using hempty)]
        simpa [Selector.element, hnone] using lookupSegments_selectors _ rest value

/-! ### Paths outside the grammar -/

theorem GetVariableValue_panics_and_truncates (vars : String → Option Value) (v w : Value) :
    GetVariableValue vars "a]0[" = .panic "runtime error: slice bounds out of range [4:1]" ∧
      getVariableName "a.b]0[" = .ok "a" ∧
      GetVariableValue (Function.update vars "a" (some v)) "a.b]0[" =
        .panic "runtime error: slice bounds out of range [4:1]" ∧
      GetVariableValue (Function.update vars "a" (some (.array []))) "a[9223372036854775807]" =
        .panic "runtime error: index out of range [9223372036854775807] with length 0" ∧
      GetVariableValue (Function.update vars "a" (some (.array [w]))) "a[0]x" = .ok w ∧
      GetVariableValue (Function.update vars "a" (some (.array [.array [v, w]]))) "a[0][1]" =
        .ok (.array [v, w]) := by
  have hsplit₁ : Split "a]0[" '.' = ["a]0["] := by decide
  have hsplit₂ : Split "a.b]0[" '.' = ["a", "b]0["] := by decide
  have hsplit₃ : Split "a[9223372036854775807]" '.' = ["a[9223372036854775807]"] := by decide
  have hsplit₄ : Split "a[0]x" '.' = ["a[0]x"] := by decide
  have hsplit₅ : Split "a[0][1]" '.' = ["a[0][1]"] := by decide
  have hinverted₁ : parsePathSegment "a]0[" =
      .panic "runtime error: slice bounds out of range [4:1]" := by decide
  have hinverted₂ : parsePathSegment "b]0[" =
      .panic "runtime error: slice bounds out of range [4:1]" := by decide
  have hplain : parsePathSegment "a" = .ok ⟨"a", none⟩ := by decide
  have hlargest : parsePathSegment "a[9223372036854775807]" =
      .ok ⟨"a", some 9223372036854775807⟩ := by decide
  have hsuffix : parsePathSegment "a[0]x" = .ok ⟨"a", some 0⟩ := by decide
  have hsecond : parsePathSegment "a[0][1]" = .ok ⟨"a", some 0⟩ := by decide
  refine ⟨?_, by decide, ?_, ?_, ?_, ?_⟩
  · simp [GetVariableValue, hsplit₁, hinverted₁, Outcome.andThen]
  · simp [GetVariableValue, hsplit₂, hplain, lookupSegments, hinverted₂, Outcome.andThen,
      pathSegment.HasIndex]
  -- `9223372036854775807 + 1` wraps to a negative `int`, so the bound check lets it through
  · have hwrap : int64 9223372036854775808 = -9223372036854775808 := by decide
    simp [GetVariableValue, hsplit₃, hlargest, getVariableArrayElement, Value.Array, hwrap,
      pathSegment.HasIndex, Outcome.andThen]
    decide
  · simp [GetVariableValue, hsplit₄, hsuffix, getVariableArrayElement, Value.Array, int64,
      lookupSegments, pathSegment.HasIndex]
  · simp [GetVariableValue, hsplit₅, hsecond, getVariableArrayElement, Value.Array, int64,
      lookupSegments, pathSegment.HasIndex]

end ClusterApi.Patches.Variables
