import LiveSheet.Proofs.Formula.Calling
import LiveSheet.Proofs.Formula.Escape
import LiveSheet.Proofs.Formula.Moving

namespace LiveSheet

namespace Formula

def children : Formula → List Formula
  | .negate f => [f]
  | .binary _ f g => [f, g]
  | .call _ fs => fs
  | _ => []

theorem height_le_of_mem {f : Formula} {fs : List Formula} (h : f ∈ fs) : f.height ≤ greatestHeight fs := by
  induction fs with
  | nil => cases h
  | cons g fs ih =>
      rw [greatestHeight]
      rcases List.mem_cons.mp h with rfl | h
      · exact le_max_left _ _
      · exact (ih h).trans (le_max_right _ _)

theorem height_lt_of_child {f g : Formula} (h : g ∈ f.children) : g.height < f.height := by
  cases f with
  | negate f =>
      obtain rfl := List.mem_singleton.mp h
      exact Nat.lt_succ_self _
  | binary o f f' =>
      rw [height, Nat.lt_succ_iff]
      rcases List.mem_cons.mp h with rfl | h
      · exact le_max_left _ _
      · obtain rfl := List.mem_singleton.mp h
        exact le_max_right _ _
  | call w fs =>
      rw [height, Nat.lt_succ_iff]
      exact height_le_of_mem h
  | _ => cases h

theorem height_pos (f : Formula) : 0 < f.height := by cases f <;> exact Nat.succ_pos _

section

variable {α : Type} {body : (Formula → α) → Formula → α} {run beyond : Formula → α}

/-- The recursion with the given step, of which at most so many calls are open at a time. A call beyond them answers
whatever it likes. -/
def limited (body : (Formula → α) → Formula → α) (beyond : Formula → α) : Nat → Formula → α
  | 0, f => beyond f
  | depth + 1, f => body (limited body beyond depth) f

structure Steps (body : (Formula → α) → Formula → α) (run : Formula → α) : Prop where
  run_eq : ∀ f, run f = body run f
  local_of : ∀ (f : Formula) (ask : Formula → α), (∀ g ∈ f.children, ask g = run g) → body ask f = body run f

theorem Steps.limited_eq (h : Steps body run) {depth : Nat} {f : Formula} (hheight : f.height ≤ depth) :
    limited body beyond depth f = run f := by
  induction depth generalizing f with
  | zero => exact absurd f.height_pos (Nat.not_lt.mpr hheight)
  | succ depth ih =>
      rw [h.run_eq]
      exact h.local_of f _ fun g hg => ih (Nat.le_of_lt_succ ((height_lt_of_child hg).trans_le hheight))

end

def operandBy (ask : Formula → Reading Value) : Formula → Operand
  | .range a b => .range (Rectangle.between a.cell b.cell)
  | f => .single (ask f)

def evaluateBy (ask : Formula → Reading Value) : Formula → Reading Value
  | .literal v => .succeed v
  | .failure e => .fail e
  | .cell a => .cell a.cell
  | .range _ _ => .fail .wrongKind
  | .rowCount => do return .number (Number.ofNat (← Reading.rowCount))
  | .name word => .fail (.unknownName word)
  | .negate operand => do
      let v ← ask operand
      let n ← Reading.ofResult v.asNumber
      return .number (-n)
  | .binary operator left right => do
      let a ← ask left
      let b ← ask right
      Reading.ofResult (operator.apply a b)
  | .call word arguments =>
      match Function.ofName? word with
      | some function => function.apply (arguments.map (operandBy ask))
      | none => .fail (.unknownName word)

theorem steps_evaluate : Steps evaluateBy evaluate where
  run_eq f := by
    cases f with
    | call word arguments =>
        have hoperand : operand = operandBy evaluate := funext fun f => by cases f <;> rfl
        rw [evaluate, operands_eq, hoperand]
        rfl
    | _ => rfl
  local_of f ask hask := by
    cases f with
    | negate f =>
        have hf := hask f List.mem_cons_self
        simp only [evaluateBy, hf]
    | binary o f g =>
        have hf := hask f List.mem_cons_self
        have hg := hask g (by simp [children])
        simp only [evaluateBy, hf, hg]
    | call w fs =>
        have hfs : fs.map (operandBy ask) = fs.map (operandBy evaluate) := by
          refine List.map_congr_left fun f hf => ?_
          cases f with
          | range a b => rfl
          | _ => exact congrArg Operand.single (hask _ hf)
        simp only [evaluateBy, hfs]
    | _ => rfl

def listed : List String → String
  | [] => ""
  | [s] => s
  | s :: rest => s ++ "," ++ listed rest

theorem argumentsText_eq (fs : List Formula) : argumentsText fs = listed (fs.map text) := by
  induction fs with
  | nil => rfl
  | cons f fs ih =>
      cases fs with
      | nil => rfl
      | cons g fs => exact congrArg (f.text ++ "," ++ ·) ih

def textBy (ask : Formula → String) : Formula → String
  | .literal (.text s) => quotedText s
  | .literal .blank => quotedText ""
  | .literal v => v.display
  | .failure e => e.marker
  | .cell a => a.text
  | .range a b => a.text ++ ":" ++ b.text
  | .rowCount => rowCountName
  | .name word => word
  | .negate operand => "-" ++ enclose (operand.precedence < 6) (ask operand)
  | .binary operator left right =>
      enclose (left.precedence < operator.precedence) (ask left) ++ operator.symbol
        ++ enclose (right.precedence ≤ operator.precedence) (ask right)
  | .call function arguments => function ++ "(" ++ listed (arguments.map ask) ++ ")"

theorem steps_text : Steps textBy text where
  run_eq f := by
    cases f with
    | literal v => cases v <;> rfl
    | call w fs => rw [text, argumentsText_eq, textBy]
    | _ => rfl
  local_of f ask hask := by
    cases f with
    | negate f =>
        have hf := hask f List.mem_cons_self
        simp only [textBy, hf]
    | binary o f g =>
        have hf := hask f List.mem_cons_self
        have hg := hask g (by simp [children])
        simp only [textBy, hf, hg]
    | call w fs =>
        have hfs : fs.map ask = fs.map text := List.map_congr_left hask
        rw [textBy, textBy, hfs]
    | literal v => cases v <;> rfl
    | _ => rfl

def offsetBy (rows columns : Int) (ask : Formula → Formula) : Formula → Formula
  | .cell a =>
      match a.offset? rows columns with
      | some moved => .cell moved
      | none => .failure .reference
  | .range a b =>
      match a.offset? rows columns, b.offset? rows columns with
      | some start, some stop => .range start stop
      | _, _ => .failure .reference
  | .negate operand => .negate (ask operand)
  | .binary operator left right => .binary operator (ask left) (ask right)
  | .call function arguments => .call function (arguments.map ask)
  | f => f

theorem steps_offset (rows columns : Int) : Steps (offsetBy rows columns) (offset rows columns) where
  run_eq f := by
    have hall (fs : List Formula) : offsetAll rows columns fs = fs.map (offset rows columns) := by
      induction fs with
      | nil => rfl
      | cons f fs ih => exact congrArg (f.offset rows columns :: ·) ih
    cases f with
    | call w fs => rw [offset, hall, offsetBy]
    | _ => rfl
  local_of f ask hask := by
    cases f with
    | negate f =>
        have hf := hask f List.mem_cons_self
        simp only [offsetBy, hf]
    | binary o f g =>
        have hf := hask f List.mem_cons_self
        have hg := hask g (by simp [children])
        simp only [offsetBy, hf, hg]
    | call w fs =>
        have hfs : fs.map ask = fs.map (offset rows columns) := List.map_congr_left hask
        rw [offsetBy, offsetBy, hfs]
    | _ => rfl

/-- No more than so many calls are open at a time while the formula is evaluated, written or moved. -/
structure RecursesWithin (depth : Nat) (f : Formula) : Prop where
  evaluate : ∀ beyond, limited evaluateBy beyond depth f = f.evaluate
  text : ∀ beyond, limited textBy beyond depth f = f.text
  offset : ∀ rows columns beyond, limited (offsetBy rows columns) beyond depth f = f.offset rows columns

theorem recursesWithin_of_height {depth : Nat} {f : Formula} (h : f.height ≤ depth) : f.RecursesWithin depth :=
  ⟨fun _ => steps_evaluate.limited_eq h, fun _ => steps_text.limited_eq h,
    fun rows columns _ => (steps_offset rows columns).limited_eq h⟩

theorem height_le_of_parse {s : String} {f : Formula} (h : parse s = .ok f) : f.height ≤ maxNesting := by
  cases hscan : Token.scan (body s) with
  | error e =>
      rw [parse, read, hscan] at h
      cases h
  | ok ts =>
      rw [parse_of_scan hscan] at h
      cases hread : ofTokens ts with
      | error e =>
          rw [hread] at h
          cases h
      | ok g =>
          rw [hread] at h
          cases h
          obtain ⟨-, -, hheight, -⟩ := ofTokens_eq_ok_iff.mp hread
          exact hheight

/-- While a text is read, no call is nested deeper than the limit; each carries exact heights, and comes back to its
nesting if it reads something. The formula that is read is no higher than the limit, wherever it moves, so evaluating,
writing and moving it stay within the limit too. -/
theorem parsed_shallow (s : String) :
    (∀ tokens p, Token.scan (body s) = .ok tokens → Cursor.Call.IsMade tokens p →
      p.nesting ≤ maxNesting ∧ p.IsExact ∧ ∀ r, p.answer = .ok r → p.Reads r) ∧
      (∀ (f : Formula) rows columns, (f.offset rows columns).height ≤ f.height) ∧
      ∀ f, parse s = .ok f → f.height ≤ maxNesting ∧ f.RecursesWithin maxNesting ∧
        ∀ rows columns, (f.offset rows columns).RecursesWithin maxNesting := by
  refine ⟨fun tokens p _ hmade => ?_, fun f rows columns => (height_offset f).le, fun f hparse => ?_⟩
  · exact ⟨hmade.sound.nesting, hmade.sound.exact, fun r => hmade.sound.reads⟩
  · have hheight := height_le_of_parse hparse
    refine ⟨hheight, recursesWithin_of_height hheight, fun rows columns => recursesWithin_of_height ?_⟩
    exact (height_offset f).trans_le hheight

theorem parsed_shallow_sign :
    let tokens : List Token := [.minus, .word "A1", .plus, .word "B1"]
    let inner : Cursor.Call := .unary ⟨tokens.tail, 2⟩
    ∃ f, Token.scan (body "=-A1+B1") = .ok tokens ∧ Cursor.Call.IsMade tokens inner ∧ inner.nesting ≤ maxNesting ∧
      parse "=-A1+B1" = .ok f ∧ f.height ≤ maxNesting ∧ f.RecursesWithin maxNesting := by
  intro tokens inner
  have hscan : Token.scan (body "=-A1+B1") = .ok tokens := by decide +kernel
  have hparse : parse "=-A1+B1" = .ok (.binary .add (.negate (.cell ⟨⟨0, 0⟩, false, false⟩))
      (.cell ⟨⟨0, 1⟩, false, false⟩)) := by cbv
  have hmade : Cursor.Call.IsMade tokens inner :=
    .tail (.single (Cursor.Call.makes_unary (by decide))) (Cursor.Call.makes_sign (by decide))
  obtain ⟨hcalls, -, hread⟩ := parsed_shallow "=-A1+B1"
  obtain ⟨hheight, hrecurses, -⟩ := hread _ hparse
  exact ⟨_, hscan, hmade, (hcalls _ _ hscan hmade).1, hparse, hheight, hrecurses⟩

end Formula

end LiveSheet
