import QueryShape.Annotation.Reader

/-!
# Reading annotations in steps

A `Scan` takes the characters that are left to an answer and the characters left after it. The readers,
without the proofs that they take something, are scans put together from a few others: `andThen`,
`byFirst` and `choose`, which look at the next token, and `demand` of a mark. The equations `…Scan_eq`
and `plain_read…` say how; what is to be shown of all readers is shown of these few and of the tokens.
-/

set_option autoImplicit false

namespace QueryShape.Annotation

open Text

variable {α β : Type} {cs rest : List Char} {x : Char}

abbrev Scan (α : Type) := List Char → Except Stop (α × List Char)

/-- An answer without the proof of what holds of the characters left. -/
def plain {p : List Char → Prop} (r : Except Stop (α × { rest : List Char // p rest })) :
    Except Stop (α × List Char) :=
  r.map fun e => (e.1, e.2.1)

namespace Scan

/-- Takes nothing. -/
def done (a : α) : Scan α := fun cs => .ok (a, cs)

/-- Fails at the next token, which is not what was looked for. -/
def fail (what : Expectation) : Scan α := fun cs => .error (stopAt what cs)

def andThen (s : Scan α) (k : α → Scan β) : Scan β := fun cs => s cs >>= fun e => k e.1 e.2

/-- Goes on after the first character of the next token as `k` says of it, and with `s` where `k` says
nothing, or where no token is left. -/
def byFirst (k : Char → Option (Scan α)) (s : Scan α) : Scan α := fun cs =>
  match skipBlank cs with
  | [] => s cs
  | c :: rest => (k c).elim (s cs) fun s' => s' rest

/-- Goes on with `s` after the mark `x`, if that is the next token, and with `s'` if not. -/
def choose (x : Char) (s s' : Scan α) : Scan α :=
  byFirst (fun c => if c = x then some s else none) s'

/-- Takes the mark `x`. -/
def demand (x : Char) : Scan Unit := choose x (done ()) (fail (.char x))

/-- What the mark `x` announces, or nothing. -/
def optionally (x : Char) (s : Scan α) : Scan (Option α) :=
  choose x (s.andThen fun a => done (some a)) (done none)

end Scan

open Scan

/-! ## Answers -/

theorem plain_ok {p : List Char → Prop} (a : α) (h : p rest) :
    plain (.ok (a, ⟨rest, h⟩) : Except Stop (α × { rest : List Char // p rest })) = .ok (a, rest) := rfl

theorem byFirst_of_cons {k : Char → Option (Scan α)} {s : Scan α} {c : Char}
    (h : skipBlank cs = c :: rest) : byFirst k s cs = (k c).elim (s cs) fun s' => s' rest := by
  unfold byFirst
  rw [h]

theorem byFirst_of_nil {k : Char → Option (Scan α)} {s : Scan α} (h : skipBlank cs = []) :
    byFirst k s cs = s cs := by
  unfold byFirst
  rw [h]

theorem choose_of_cons {s s' : Scan α} {c : Char} (h : skipBlank cs = c :: rest) :
    choose x s s' cs = if c = x then s rest else s' cs := by
  unfold choose
  rw [byFirst_of_cons h]
  split <;> rfl

theorem eq_choose {s s' : Scan α} {r : Except Stop (α × List Char)}
    (hsome : ∀ rest, eat? x cs = some rest → r = s rest.1) (hnone : eat? x cs = none → r = s' cs) :
    r = choose x s s' cs := by
  cases hs : skipBlank cs with
  | nil =>
    unfold choose
    rw [byFirst_of_nil hs]
    exact hnone (eat?_of_nil hs)
  | cons c rest =>
    rw [choose_of_cons hs]
    split
    · rename_i hc
      exact hsome _ ((eat?_of_cons hs).trans (if_pos hc))
    · rename_i hc
      exact hnone ((eat?_of_cons hs).trans (if_neg hc))

theorem eq_demand {r : Except Stop (Unit × List Char)}
    (h : r = (expect x cs).map fun rest => ((), rest.1)) : r = demand x cs := by
  refine h.trans (eq_choose (fun rest he => ?_) fun he => ?_)
  · rw [expect, he]
    rfl
  · rw [expect, he]
    rfl

theorem plain_andThen {p q : List Char → Prop} {r : Except Stop (α × { rest : List Char // p rest })}
    {f : α × { rest : List Char // p rest } → Except Stop (β × { rest : List Char // q rest })}
    {s : Scan α} {k : α → Scan β} (hr : plain r = s cs)
    (hf : ∀ a rest hp, plain (f (a, ⟨rest, hp⟩)) = k a rest) : plain (r >>= f) = (s.andThen k) cs := by
  unfold Scan.andThen
  rw [← hr]
  cases r with
  | error stop => rfl
  | ok e => exact hf e.1 e.2.1 e.2.2

theorem plain_map {p : List Char → Prop} (f : α → β)
    (r : Except Stop (α × { rest : List Char // p rest })) :
    plain (r.map fun e => (f e.1, e.2)) = (plain r).map fun e => (f e.1, e.2) := by
  cases r with
  | error stop => rfl
  | ok e => rfl

theorem plain_expect {q : List Char → Prop}
    {f : Shorter cs → Except Stop (β × { rest : List Char // q rest })} {k : Scan β}
    (hf : ∀ rest hr, plain (f ⟨rest, hr⟩) = k rest) :
    plain (expect x cs >>= f) = ((demand x).andThen fun _ => k) cs := by
  unfold Scan.andThen
  rw [← eq_demand rfl]
  cases expect x cs with
  | error stop => rfl
  | ok r => exact hf r.1 r.2

/-! ## Types and values -/

def nameScan : Scan String := fun cs => plain (readName cs)

def typeScan : Scan String := fun cs => plain (readType cs)

theorem typeScan_eq (cs : List Char) :
    typeScan cs = ((choose '[' (typeScan.andThen fun item => (demand ']').andThen fun _ =>
      done ("[" ++ item ++ "]")) nameScan).andThen fun inner =>
        choose '!' (done (inner ++ "!")) (done inner)) cs := by
  unfold typeScan
  rw [readType]
  refine plain_andThen (eq_choose (fun r he => ?_) fun he => ?_) fun inner rest _ =>
    eq_choose (fun r he => ?_) fun he => ?_
  · rw [he]
    exact plain_andThen rfl fun item rest _ => plain_expect fun rest _ => rfl
  · rw [he]
    rfl
  · dsimp only
    rw [he]
    rfl
  · dsimp only
    rw [he]
    rfl

/-- The characters of a string after its first quote. -/
def stringScan : Scan Value := fun cs =>
  match readStringBody cs with
  | some (s, rest) => .ok (.string (String.ofList s), rest)
  | none => .error ⟨.unterminatedString, '"' :: cs⟩

/-- A number after its first character. -/
def numberScan (c : Char) : Scan Value := fun cs =>
  match readNumber? (c :: (numberRun false cs).1) (numberRun false cs).2.2 with
  | some v => .ok (v, (numberRun false cs).2.1)
  | none => .error ⟨.invalidNumber (String.ofList (c :: (numberRun false cs).1)), c :: cs⟩

/-- The rest of a name after its first character. -/
def nameRest (c : Char) : Scan String := fun cs =>
  .ok (String.ofList (c :: cs.takeWhile isNameChar), cs.dropWhile isNameChar)

theorem nameScan_eq (cs : List Char) :
    nameScan cs =
      byFirst (fun c => if isNameStart c then some (nameRest c) else none) (fail .name) cs := by
  unfold nameScan readName
  split
  · rename_i c rest hs
    rw [byFirst_of_cons hs]
    split <;> rfl
  · rename_i hs
    rw [byFirst_of_nil hs]
    rfl

/-- A number or a word, told apart by the first character. -/
def wordScan : Scan Value :=
  byFirst (fun c =>
    if c = '-' || c.isDigit then some (numberScan c)
    else if isNameStart c then some ((nameRest c).andThen fun word => done (wordValue word))
    else none) (fail .value)

def scalarScan : Scan Value := choose '"' stringScan wordScan

theorem plain_readScalar {c : Char} (h : skipBlank cs = c :: rest) :
    plain (readScalar cs c rest h) = scalarScan cs := by
  unfold scalarScan wordScan
  rw [choose_of_cons h, byFirst_of_cons h, readScalar]
  by_cases hq : c = '"'
  · rw [if_pos hq, if_pos hq]
    unfold stringScan
    subst hq
    split
    · rename_i hb
      rw [plain_ok, hb]
    · rename_i hb
      rw [hb]
      rfl
  rw [if_neg hq, if_neg hq]
  split
  · rw [Option.elim_some]
    unfold numberScan
    dsimp only
    cases readNumber? (c :: (numberRun false rest).1) (numberRun false rest).2.2 with
    | none => rfl
    | some v => rfl
  split
  · rename_i hc
    have hname : nameScan cs = nameRest c rest := by
      rw [nameScan_eq, byFirst_of_cons h, if_pos hc, Option.elim_some]
    rw [plain_map]
    show (nameScan cs).map _ = _
    rw [hname]
    rfl
  · rfl

def valueScan : Scan Value := fun cs => plain (readValue cs)

def itemsScan : Scan (List Value) := fun cs => plain (readItems cs)

def fieldsScan : Scan (List (String × Value)) := fun cs => plain (readFields cs)

theorem valueScan_eq (cs : List Char) :
    valueScan cs = choose '[' (choose ']' (done (.list [])) (itemsScan.andThen fun items =>
      done (.list items))) (choose '{' (choose '}' (done (.object [])) (fieldsScan.andThen fun fields =>
        done (.ofFields fields))) scalarScan) cs := by
  unfold valueScan
  rw [readValue]
  split
  · rename_i hs
    unfold choose scalarScan choose wordScan
    rw [byFirst_of_nil hs, byFirst_of_nil hs, byFirst_of_nil hs, byFirst_of_nil hs]
    rfl
  rename_i c r hs
  rw [choose_of_cons hs, choose_of_cons hs]
  by_cases hl : c = '['
  · rw [if_pos hl, if_pos hl]
    refine eq_choose (fun r he => ?_) fun he => ?_
    · rw [he]
      rfl
    · rw [he]
      exact plain_andThen rfl fun items rest _ => rfl
  rw [if_neg hl, if_neg hl]
  by_cases ho : c = '{'
  · rw [if_pos ho, if_pos ho]
    refine eq_choose (fun r he => ?_) fun he => ?_
    · rw [he]
      rfl
    · rw [he]
      exact plain_andThen rfl fun fields rest _ => rfl
  · rw [if_neg ho, if_neg ho]
    exact plain_readScalar hs

theorem itemsScan_eq (cs : List Char) :
    itemsScan cs = (valueScan.andThen fun v => choose ',' (itemsScan.andThen fun vs => done (v :: vs))
      ((demand ']').andThen fun _ => done [v])) cs := by
  unfold itemsScan
  rw [readItems]
  refine plain_andThen rfl fun v rest _ => eq_choose (fun r he => ?_) fun he => ?_
  · dsimp only
    rw [he]
    exact plain_andThen rfl fun vs rest _ => rfl
  · dsimp only
    rw [he]
    exact plain_expect fun rest _ => rfl

theorem fieldsScan_eq (cs : List Char) :
    fieldsScan cs = (nameScan.andThen fun key => (demand ':').andThen fun _ =>
      valueScan.andThen fun v => choose ',' (fieldsScan.andThen fun fs => done ((key, v) :: fs))
        ((demand '}').andThen fun _ => done [(key, v)])) cs := by
  unfold fieldsScan
  rw [readFields]
  refine plain_andThen rfl fun key rest _ => plain_expect fun rest _ =>
    plain_andThen rfl fun v rest _ => eq_choose (fun r he => ?_) fun he => ?_
  · dsimp only
    rw [he]
    exact plain_andThen rfl fun fs rest _ => rfl
  · dsimp only
    rw [he]
    exact plain_expect fun rest _ => rfl

/-! ## Arguments and items -/

theorem plain_optional {read : (cs : List Char) → Reading α cs} {s : Scan α}
    (h : ∀ cs, plain (read cs) = s cs) (cs : List Char) :
    plain (optional x read cs) = optionally x s cs := by
  refine eq_choose (fun r he => ?_) fun he => ?_
  · rw [optional, he]
    exact plain_andThen (h r.1) fun a rest _ => rfl
  · rw [optional, he]
    rfl

/-- The name of a variable, where one follows at once. -/
def variableNameScan : Scan (Option String) := fun cs =>
  if cs.head?.any isNameStart then (nameScan.andThen fun name => done (some name)) cs
  else done none cs

theorem plain_readVariableName (cs : List Char) :
    plain (readVariableName cs) = variableNameScan cs := by
  unfold readVariableName variableNameScan
  split
  · exact plain_andThen rfl fun name rest _ => rfl
  · rfl

def argumentScan : Scan Argument :=
  choose '$' (variableNameScan.andThen fun name => (optionally ':' typeScan).andThen fun type =>
      (optionally '=' valueScan).andThen fun default => done (.variable name type default))
    (valueScan.andThen fun value => (optionally ':' typeScan).andThen fun type =>
      done (.literal value type))

theorem plain_readArgument (cs : List Char) : plain (readArgument cs) = argumentScan cs := by
  refine eq_choose (fun r he => ?_) fun he => ?_
  · rw [readArgument, he]
    exact plain_andThen (plain_readVariableName r.1) fun name rest _ =>
      plain_andThen (plain_optional (fun _ => rfl) rest) fun type rest _ =>
        plain_andThen (plain_optional (fun _ => rfl) rest) fun default rest _ => rfl
  · rw [readArgument, he]
    exact plain_andThen rfl fun value rest _ =>
      plain_andThen (plain_optional (fun _ => rfl) rest) fun type rest _ => rfl

def argumentsScan (seen : List String) : Scan (List (String × Argument)) := fun cs =>
  plain (readArguments seen cs)

theorem argumentsScan_eq (seen : List String) (cs : List Char) :
    argumentsScan seen cs = (nameScan.andThen fun key => (demand ':').andThen fun _ =>
      argumentScan.andThen fun argument =>
        if key ∈ seen then fun _ => .error ⟨.duplicateArgument key, skipBlank cs⟩
        else choose ',' ((argumentsScan (key :: seen)).andThen fun arguments =>
            done ((key, argument) :: arguments))
          ((demand ')').andThen fun _ => done [(key, argument)])) cs := by
  unfold argumentsScan
  rw [readArguments]
  refine plain_andThen rfl fun key rest _ => plain_expect fun rest _ =>
    plain_andThen (plain_readArgument rest) fun argument rest _ => ?_
  dsimp only
  split
  · rfl
  · refine eq_choose (fun r he => ?_) fun he => ?_
    · rw [he]
      exact plain_andThen rfl fun arguments rest _ => rfl
    · rw [he]
      exact plain_expect fun rest _ => rfl

def itemScan (leading : Bool) : Scan Item := fun cs => plain (readItem leading cs)

theorem itemScan_eq (leading : Bool) (cs : List Char) :
    itemScan leading cs = (nameScan.andThen fun name =>
      choose '(' (if leading then choose ')' (done (.call name []))
          ((argumentsScan []).andThen fun arguments => done (.call name arguments))
        else fun _ => .error ⟨.lateCall name, skipBlank cs⟩)
      ((optionally '=' nameScan).andThen fun value => done (.flag ⟨name, value⟩))) cs := by
  unfold itemScan
  rw [readItem]
  refine plain_andThen rfl fun name rest _ => eq_choose (fun r he => ?_) fun he => ?_
  · dsimp only
    rw [he]
    dsimp only
    split
    · refine eq_choose (fun r he => ?_) fun he => ?_
      · rw [he]
        rfl
      · rw [he]
        exact plain_andThen rfl fun arguments rest _ => rfl
    · rfl
  · dsimp only
    rw [he]
    exact plain_andThen (plain_optional (fun _ => rfl) rest) fun value rest _ => rfl

/-- All items; what is left after them is the end of the text. -/
def allScan (leading : Bool) : Scan (List Item) := fun cs =>
  (readAll leading cs).map fun items => (items, [])

theorem allScan_eq (leading : Bool) (cs : List Char) :
    allScan leading cs = ((itemScan leading).andThen fun item rest =>
      if skipBlank rest = [] then .ok ([item], [])
      else choose ',' ((allScan false).andThen fun items => done (item :: items))
        (fail (.char ',')) rest) cs := by
  unfold allScan itemScan Scan.andThen
  rw [readAll]
  dsimp only
  cases readItem leading cs with
  | error stop => rfl
  | ok e =>
    show Except.map _ (if skipBlank e.2.1 = [] then _ else _) =
      if skipBlank e.2.1 = [] then _ else _
    split
    · rfl
    · refine eq_choose (fun r he => ?_) fun he => ?_
      · rw [expect, he]
        show Except.map _ (readAll false r.1 >>= _) = Except.map _ (readAll false r.1) >>= _
        cases readAll false r.1 with
        | error stop => rfl
        | ok items => rfl
      · rw [expect, he]
        rfl

end QueryShape.Annotation
