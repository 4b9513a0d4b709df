import LiveSheet.Proofs.Formula.Climbing

namespace LiveSheet

namespace Cursor

def bare {α : Type} {p : α → Prop} (r : Except ParseError { a : α // p a }) : Except ParseError α := r.map (·.1)

section

variable (least n : Nat) (token : Token) (ts : List Token) (w : String)

theorem expression_eq (c : Cursor) : bare (expression least c) =
    if maxNesting ≤ c.nesting then .error .tooDeep
    else (bare (unary c.deeper)).bind fun left =>
      (bare (climb least left)).map fun t => { t with rest := t.rest.shallower } := by
  rw [expression]
  split
  · rfl
  · cases unary c.deeper with
    | error e => rfl
    | ok left =>
        obtain ⟨left, hl⟩ := left
        simp only [bare, Except.map, Except.bind]
        cases climb least left <;> rfl

theorem climb_nil (f : Formula) (height : Nat) :
    bare (climb least ⟨f, height, ⟨[], n⟩⟩) = .ok ⟨f, height, ⟨[], n⟩⟩ := by
  rw [climb]
  rfl

theorem climb_cons (f : Formula) (height : Nat) : bare (climb least ⟨f, height, ⟨token :: ts, n⟩⟩) =
    match token.operator? with
    | none => .ok ⟨f, height, ⟨token :: ts, n⟩⟩
    | some o =>
        if o.precedence < least then .ok ⟨f, height, ⟨token :: ts, n⟩⟩
        else (bare (expression (o.precedence + 1) ⟨ts, n⟩)).bind fun right =>
          (heightAbove (max height right.height)).bind fun above =>
            bare (climb least ⟨.binary o f right.formula, above, right.rest⟩) := by
  rw [climb]
  split
  · next h => cases h
  next u behind h =>
  cases h
  cases token.operator? with
  | none => rfl
  | some o =>
      simp only
      split
      · rfl
      cases expression (o.precedence + 1) ⟨ts, n⟩ with
      | error e => rfl
      | ok right =>
          obtain ⟨right, hr⟩ := right
          simp only [bare, Except.map, Except.bind]
          cases heightAbove (max height right.height) with
          | error e => rfl
          | ok above =>
              simp only
              cases climb least ⟨.binary o f right.formula, above, right.rest⟩ <;> rfl

theorem unary_nil : bare (unary ⟨[], n⟩) = .error .unexpectedEnd := by
  rw [unary]
  rfl

theorem unary_minus : bare (unary ⟨.minus :: ts, n⟩) =
    if maxNesting ≤ n then .error .tooDeep
    else (bare (unary (deeper ⟨ts, n⟩))).bind fun t =>
      (heightAbove t.height).map fun height => ⟨.negate t.formula, height, t.rest.shallower⟩ := by
  rw [unary]
  simp only [next?]
  split
  · rfl
  · cases unary (deeper ⟨ts, n⟩) with
    | error e => rfl
    | ok t =>
        obtain ⟨t, ht⟩ := t
        simp only [bare, Except.map, Except.bind]
        cases heightAbove t.height <;> rfl

theorem unary_plus : bare (unary ⟨.plus :: ts, n⟩) =
    if maxNesting ≤ n then .error .tooDeep
    else (bare (unary (deeper ⟨ts, n⟩))).map fun t => { t with rest := t.rest.shallower } := by
  rw [unary]
  simp only [next?]
  split
  · rfl
  · cases unary (deeper ⟨ts, n⟩) <;> rfl

theorem unary_cons (hminus : token ≠ .minus) (hplus : token ≠ .plus) :
    bare (unary ⟨token :: ts, n⟩) = bare (primary token ⟨ts, n⟩) := by
  rw [unary]
  split
  · next h => cases h
  · next h =>
      cases h
      exact absurd rfl hminus
  · next h =>
      cases h
      exact absurd rfl hplus
  · next h =>
      cases h
      cases primary token ⟨ts, n⟩ <;> rfl

theorem primary_opening (c : Cursor) : bare (primary .opening c) =
    (bare (expression 0 c)).bind fun t =>
      match t.rest.tokens with
      | .closing :: ts => .ok { t with rest := ⟨ts, t.rest.nesting⟩ }
      | found :: _ => .error (.unclosedParenthesis (some found))
      | [] => .error (.unclosedParenthesis none) := by
  rw [primary]
  cases expression 0 c with
  | error e => rfl
  | ok t =>
      obtain ⟨⟨f, height, ⟨ts, n⟩⟩, ht⟩ := t
      simp only [bare, Except.map, Except.bind]
      cases ts with
      | nil => rfl
      | cons token ts => cases token <;> rfl

theorem primary_call : bare (primary (.word w) ⟨.opening :: ts, n⟩) =
    (bare (arguments ⟨ts, n⟩)).bind fun a =>
      (heightAbove a.height).map fun height => ⟨.call (Text.upperAscii w) a.formulas, height, a.rest⟩ := by
  rw [primary, word]
  simp only [next?]
  cases arguments ⟨ts, n⟩ with
  | error e => rfl
  | ok a =>
      obtain ⟨a, ha⟩ := a
      simp only [bare, Except.map, Except.bind]
      cases heightAbove a.height <;> rfl

theorem primary_word (h : ts.head? ≠ some .opening) :
    bare (primary (.word w) ⟨ts, n⟩) = bare (plainWord w ⟨ts, n⟩) := by
  rw [primary, word]
  cases ts with
  | nil => rfl
  | cons token ts => cases token <;> first | rfl | exact absurd rfl h

theorem arguments_closing : bare (arguments ⟨.closing :: ts, n⟩) = .ok ⟨[], 0, ⟨ts, n⟩⟩ := by
  rw [arguments]
  rfl

theorem arguments_eq (h : ts.head? ≠ some .closing) :
    bare (arguments ⟨ts, n⟩) = bare (moreArguments ⟨ts, n⟩) := by
  rw [arguments]
  cases ts with
  | nil => rfl
  | cons token ts => cases token <;> first | rfl | exact absurd rfl h

theorem moreArguments_eq (c : Cursor) : bare (moreArguments c) =
    (bare (expression 0 c)).bind fun t =>
      match t.rest.tokens with
      | .comma :: ts => (bare (moreArguments ⟨ts, t.rest.nesting⟩)).map fun a =>
          ⟨t.formula :: a.formulas, max t.height a.height, a.rest⟩
      | .closing :: ts => .ok ⟨[t.formula], t.height, ⟨ts, t.rest.nesting⟩⟩
      | found :: _ => .error (.unclosedCall (some found))
      | [] => .error (.unclosedCall none) := by
  rw [moreArguments]
  cases expression 0 c with
  | error e => rfl
  | ok t =>
      obtain ⟨⟨f, height, ⟨ts, n⟩⟩, ht⟩ := t
      simp only [bare, Except.map, Except.bind]
      cases ts with
      | nil => rfl
      | cons token ts =>
          cases token with
          | comma =>
              simp only [next?]
              cases moreArguments ⟨ts, n⟩ <;> rfl
          | _ => rfl

theorem plainWord_name (c : Cursor) (h : Address.ofWord? w = none) : bare (plainWord w c) =
    if w.contains '$' then .error (.invalidReference w) else .ok ⟨.ofName w, 1, c⟩ := by
  rw [plainWord, h]
  simp only
  split <;> rfl

theorem plainWord_cell {a : Address} (h : Address.ofWord? w = some a) (hts : ts.head? ≠ some .colon) :
    bare (plainWord w ⟨ts, n⟩) = .ok ⟨.cell a, 1, ⟨ts, n⟩⟩ := by
  rw [plainWord, h]
  cases ts with
  | nil => rfl
  | cons token ts => cases token <;> first | rfl | exact absurd rfl hts

theorem plainWord_range {a : Address} (h : Address.ofWord? w = some a) :
    bare (plainWord w ⟨.colon :: ts, n⟩) =
      match ts with
      | .word v :: rest =>
          match Address.ofWord? v with
          | some b => .ok ⟨.range a b, 1, ⟨rest, n⟩⟩
          | none => .error (.invalidRangeEnd v)
      | _ => .error .missingRangeEnd := by
  rw [plainWord, h]
  cases ts with
  | nil => rfl
  | cons token ts =>
      cases token with
      | word v =>
          simp only [next?]
          cases Address.ofWord? v <;> rfl
      | _ => rfl

end

def within (n d : Nat) (f : Formula) (rest : List Token) : Except ParseError Subtree :=
  if n + d ≤ maxNesting ∧ f.height ≤ maxNesting then .ok ⟨f, f.height, ⟨rest, n⟩⟩ else .error .tooDeep

def allWithin (n d : Nat) (fs : List Formula) (rest : List Token) : Except ParseError Arguments :=
  if n + d ≤ maxNesting ∧ Formula.greatestHeight fs ≤ maxNesting then .ok ⟨fs, Formula.greatestHeight fs, ⟨rest, n⟩⟩
  else .error .tooDeep

section

variable {n d : Nat} {f : Formula} {fs : List Formula} {rest : List Token}

theorem within_ok (hd : n + d ≤ maxNesting) (hf : f.height ≤ maxNesting) :
    within n d f rest = .ok ⟨f, f.height, ⟨rest, n⟩⟩ := if_pos ⟨hd, hf⟩

theorem within_error (h : n + d ≤ maxNesting → maxNesting < f.height) : within n d f rest = .error .tooDeep :=
  if_neg fun ⟨hd, hf⟩ => Nat.not_lt.mpr hf (h hd)

theorem within_leaf (hn : n ≤ maxNesting) (hf : f.height = 1) : within n 0 f rest = .ok ⟨f, 1, ⟨rest, n⟩⟩ := by
  rw [within_ok hn (by rw [hf]; decide), hf]

theorem allWithin_ok (hd : n + d ≤ maxNesting) (hfs : Formula.greatestHeight fs ≤ maxNesting) :
    allWithin n d fs rest = .ok ⟨fs, Formula.greatestHeight fs, ⟨rest, n⟩⟩ := if_pos ⟨hd, hfs⟩

theorem allWithin_error (h : n + d ≤ maxNesting → maxNesting < Formula.greatestHeight fs) :
    allWithin n d fs rest = .error .tooDeep :=
  if_neg fun ⟨hd, hf⟩ => Nat.not_lt.mpr hf (h hd)

end

theorem heightAbove_ok {child : Nat} (h : child + 1 ≤ maxNesting) : heightAbove child = .ok (child + 1) :=
  if_neg (Nat.not_lt.mpr h)

theorem heightAbove_error {child : Nat} (h : maxNesting < child + 1) : heightAbove child = .error .tooDeep :=
  if_pos h

section

variable {α β : Type} {out : Except ParseError β}

theorem bind_within {k : Subtree → Except ParseError β}
    (hok : n + d ≤ maxNesting → f.height ≤ maxNesting → k ⟨f, f.height, ⟨rest, n⟩⟩ = out)
    (herror : (n + d ≤ maxNesting → maxNesting < f.height) → out = .error .tooDeep) :
    (within n d f rest).bind k = out := by
  by_cases h : n + d ≤ maxNesting ∧ f.height ≤ maxNesting
  · rw [within_ok h.1 h.2]
    exact hok h.1 h.2
  · have hdeep : n + d ≤ maxNesting → maxNesting < f.height := fun hd => Nat.not_le.mp fun hf => h ⟨hd, hf⟩
    rw [within_error hdeep, herror hdeep]
    rfl

theorem bind_allWithin {k : Arguments → Except ParseError β}
    (hok : n + d ≤ maxNesting → Formula.greatestHeight fs ≤ maxNesting →
      k ⟨fs, Formula.greatestHeight fs, ⟨rest, n⟩⟩ = out)
    (herror : (n + d ≤ maxNesting → maxNesting < Formula.greatestHeight fs) → out = .error .tooDeep) :
    (allWithin n d fs rest).bind k = out := by
  by_cases h : n + d ≤ maxNesting ∧ Formula.greatestHeight fs ≤ maxNesting
  · rw [allWithin_ok h.1 h.2]
    exact hok h.1 h.2
  · have hdeep : n + d ≤ maxNesting → maxNesting < Formula.greatestHeight fs :=
      fun hd => Nat.not_le.mp fun hf => h ⟨hd, hf⟩
    rw [allWithin_error hdeep, herror hdeep]
    rfl

theorem bind_heightAbove {child : Nat} {k : Nat → Except ParseError β}
    (hok : child + 1 ≤ maxNesting → k (child + 1) = out)
    (herror : maxNesting < child + 1 → out = .error .tooDeep) : (heightAbove child).bind k = out := by
  by_cases h : child + 1 ≤ maxNesting
  · rw [heightAbove_ok h]
    exact hok h
  · rw [heightAbove_error (Nat.not_le.mp h), herror (Nat.not_le.mp h)]
    rfl

theorem map_eq_bind (r : Except ParseError α) (g : α → β) : r.map g = r.bind fun a => .ok (g a) := by
  cases r <;> rfl

end

theorem height_ofName (w : String) : (Formula.ofName w).height = 1 := by
  unfold Formula.ofName
  split
  · rfl
  · rfl
  · split <;> rfl

def Answers (ts : List Token) (d : Nat) (rest : List Token) : Reader → List Formula → Prop
  | .expression least, [f] => ∀ n ≤ maxNesting, bare (expression least ⟨ts, n⟩) = within n d f rest
  | .climb least l, [f] => l.height ≤ f.height ∧ (l.height ≤ maxNesting → ∀ n ≤ maxNesting,
      bare (climb least ⟨l, l.height, ⟨ts, n⟩⟩) = within n d f rest)
  | .unary, [f] => ∀ n ≤ maxNesting, bare (unary ⟨ts, n⟩) = within n d f rest
  | .primary, [f] => ∀ token us, ts = token :: us → ∀ n ≤ maxNesting, bare (primary token ⟨us, n⟩) = within n d f rest
  | .arguments, fs => ∀ n ≤ maxNesting, bare (arguments ⟨ts, n⟩) = allWithin n d fs rest
  | .moreArguments, fs => ∀ n ≤ maxNesting, bare (moreArguments ⟨ts, n⟩) = allWithin n d fs rest
  | _, _ => False

theorem answers_of_takes {r : Reader} {d : Nat} {fs : List Formula} {ts rest : List Token} (h : Takes r ts d fs rest) :
    Answers ts d rest r fs := by
  induction h with
  | @expression least a b f g ts us rest _ _ ihleft ihclimb =>
      intro n hn
      obtain ⟨hheight, hclimb⟩ := ihclimb
      rw [expression_eq]
      dsimp only
      split
      · next hfull => exact (within_error (by omega)).symm
      · next hfull =>
          have hleft : bare (unary (deeper ⟨ts, n⟩)) = within (n + 1) a f us := ihleft (n + 1) (by omega)
          rw [hleft]
          refine bind_within (fun _ hf => ?_) fun _ => within_error (by omega)
          rw [hclimb hf (n + 1) (by omega), map_eq_bind]
          refine bind_within (fun _ hg => ?_) fun _ => within_error (by omega)
          rw [within_ok (by omega) hg]
          rfl
  | @stop least f ts hstop =>
      refine ⟨Nat.le_refl _, fun hf n hn => ?_⟩
      rw [within_ok hn hf]
      cases ts with
      | nil => exact climb_nil ..
      | cons token ts =>
          rw [climb_cons]
          cases ho : token.operator? with
          | none => rfl
          | some o => exact if_pos (hstop token rfl o ho)
  | @climb least a b o token f g h ts us rest ho hle _ _ ihright ihclimb =>
      obtain ⟨hheight, hclimb⟩ := ihclimb
      rw [Formula.height] at hheight hclimb
      refine ⟨by omega, fun hf n hn => ?_⟩
      rw [climb_cons, ho]
      simp only [if_neg (Nat.not_lt.mpr hle), ihright n hn]
      refine bind_within (fun ha _ => ?_) fun _ => within_error (by omega)
      dsimp only
      refine bind_heightAbove (fun habove => ?_) fun _ => within_error (by omega)
      rw [hclimb habove n hn]
      by_cases hb : n + b ≤ maxNesting ∧ h.height ≤ maxNesting
      · rw [within_ok hb.1 hb.2, within_ok (by omega) hb.2]
      · rw [within_error (by omega), within_error (by omega)]
  | @minus d f ts rest _ ih =>
      intro n hn
      rw [unary_minus]
      split
      · next hfull => exact (within_error (by omega)).symm
      · next hfull =>
          have hoperand : bare (unary (deeper ⟨ts, n⟩)) = within (n + 1) d f rest := ih (n + 1) (by omega)
          have hheight : (Formula.negate f).height = f.height + 1 := rfl
          rw [hoperand]
          refine bind_within (fun _ _ => ?_) fun _ => within_error (by omega)
          rw [map_eq_bind]
          dsimp only
          refine bind_heightAbove (fun habove => ?_) fun _ => within_error (by omega)
          rw [within_ok (by omega) (hheight ▸ habove)]
          rfl
  | @plus d f ts rest _ ih =>
      intro n hn
      rw [unary_plus]
      split
      · next hfull => exact (within_error (by omega)).symm
      · next hfull =>
          have hoperand : bare (unary (deeper ⟨ts, n⟩)) = within (n + 1) d f rest := ih (n + 1) (by omega)
          rw [hoperand, map_eq_bind]
          refine bind_within (fun _ hf => ?_) fun _ => within_error (by omega)
          rw [within_ok (by omega) hf]
          rfl
  | unary hminus hplus _ ih =>
      intro n hn
      rw [unary_cons _ _ _ hminus hplus]
      exact ih _ _ rfl n hn
  | number | text | failure =>
      rintro _ _ ⟨⟩ n hn
      rw [within_leaf hn rfl, primary]
      rfl
  | @enclosed d f ts rest _ ih =>
      rintro _ _ ⟨⟩ n hn
      rw [primary_opening, ih n hn]
      exact bind_within (fun hd hf => (within_ok hd hf).symm) within_error
  | @call d w fs ts rest _ ih =>
      rintro _ _ ⟨⟩ n hn
      have hheight : (Formula.call (Text.upperAscii w) fs).height = Formula.greatestHeight fs + 1 := rfl
      rw [primary_call, ih n hn]
      refine bind_allWithin (fun hd _ => ?_) fun _ => within_error (by omega)
      rw [map_eq_bind]
      dsimp only
      refine bind_heightAbove (fun habove => ?_) fun _ => within_error (by omega)
      rw [within_ok hd (hheight ▸ habove)]
      rfl
  | cell haddress hopening hcolon =>
      rintro _ _ ⟨⟩ n hn
      rw [primary_word _ _ _ hopening, plainWord_cell _ _ _ haddress hcolon, within_leaf hn rfl]
  | range hstart hstop =>
      rintro _ _ ⟨⟩ n hn
      rw [primary_word _ _ _ (by simp), plainWord_range _ _ _ hstart, within_leaf hn rfl]
      simp only [hstop]
  | @name w ts hnone hanchor hopening =>
      rintro _ _ ⟨⟩ n hn
      rw [primary_word _ _ _ hopening, plainWord_name _ _ hnone, if_neg (by simpa using hanchor)]
      rw [within_leaf hn (height_ofName w)]
  | noArgument =>
      intro n hn
      rw [arguments_closing, allWithin_ok hn (Nat.zero_le _)]
      rfl
  | arguments hne _ ih =>
      intro n hn
      rw [arguments_eq _ _ hne, ih n hn]
  | @lastArgument d f ts rest _ ih =>
      intro n hn
      have hheight : Formula.greatestHeight [f] = f.height := Nat.max_zero _
      rw [moreArguments_eq, ih n hn]
      refine bind_within (fun hd hf => ?_) fun _ => allWithin_error (by omega)
      rw [allWithin_ok hd (by omega), hheight]
  | @argument a b f fs ts us rest _ _ ih ihmore =>
      intro n hn
      have hheight : Formula.greatestHeight (f :: fs) = max f.height (Formula.greatestHeight fs) := rfl
      rw [moreArguments_eq, ih n hn]
      refine bind_within (fun ha hf => ?_) fun _ => allWithin_error (by omega)
      simp only [ihmore n hn, map_eq_bind]
      refine bind_allWithin (fun hb hfs => ?_) fun _ => allWithin_error (by omega)
      rw [allWithin_ok (by omega) (by omega)]
      rfl

theorem size_of_bare {c : Cursor} {r : Except ParseError c.Beyond} {t : Subtree} (h : bare r = .ok t) :
    t.rest.size < c.size := by
  cases r with
  | error e => cases h
  | ok s =>
      cases h
      exact s.2

theorem bind_ok {α β : Type} {x : Except ParseError α} {g : α → Except ParseError β} {b : β} (h : x.bind g = .ok b) :
    ∃ a, x = .ok a ∧ g a = .ok b := by
  cases x with
  | error e => cases h
  | ok a => exact ⟨a, rfl, h⟩

theorem map_ok {α β : Type} {x : Except ParseError α} {g : α → β} {b : β} (h : x.map g = .ok b) :
    ∃ a, x = .ok a ∧ g a = b := by
  cases x with
  | error e => cases h
  | ok a => exact ⟨a, rfl, Except.ok.inj h⟩

theorem takes_of_plainWord {w : String} {ts : List Token} {n : Nat} {t : Subtree} (hts : ts.head? ≠ some .opening)
    (h : bare (plainWord w ⟨ts, n⟩) = .ok t) : ∃ d, Takes .primary (.word w :: ts) d [t.formula] t.rest.tokens := by
  cases hw : Address.ofWord? w with
  | none =>
      rw [plainWord_name _ _ hw] at h
      split at h
      · cases h
      next hanchor =>
      cases h
      exact ⟨0, .name hw (by simpa using hanchor) hts⟩
  | some a =>
      by_cases hcolon : ts.head? = some .colon
      · obtain ⟨us, rfl⟩ := List.head?_eq_some_iff.mp hcolon
        rw [plainWord_range _ _ _ hw] at h
        split at h
        · next v rest =>
            split at h
            · next b hv =>
                cases h
                exact ⟨0, .range hw hv⟩
            · cases h
        · cases h
      · rw [plainWord_cell _ _ _ hw hcolon] at h
        cases h
        exact ⟨0, .cell hw hts hcolon⟩

mutual

theorem takes_of_expression {least : Nat} {c : Cursor} {t : Subtree} (h : bare (expression least c) = .ok t) :
    ∃ d, Takes (.expression least) c.tokens d [t.formula] t.rest.tokens := by
  rw [expression_eq] at h
  split at h
  · cases h
  obtain ⟨left, hleft, h⟩ := bind_ok h
  obtain ⟨s, hs, rfl⟩ := map_ok h
  have hsize : left.rest.size < c.size := size_of_bare hleft
  obtain ⟨a, ha⟩ := takes_of_unary hleft
  obtain ⟨b, hb⟩ := takes_of_climb hs
  exact ⟨_, .expression ha hb⟩
termination_by 5 * c.size + 2
decreasing_by
  · rw [size_deeper]
    omega
  · omega

theorem takes_of_climb {least : Nat} {left t : Subtree} (h : bare (climb least left) = .ok t) :
    ∃ d, Takes (.climb least left.formula) left.rest.tokens d [t.formula] t.rest.tokens := by
  rcases hl : left with ⟨f, height, ⟨_ | ⟨token, ts⟩, n⟩⟩
  · rw [hl, climb_nil] at h
    cases h
    exact ⟨0, .stop (by simp)⟩
  have hts : left.rest.size = ts.length + 1 := by rw [hl]; rfl
  rw [hl, climb_cons] at h
  cases ho : token.operator? with
  | none =>
      rw [ho] at h
      cases h
      exact ⟨0, .stop (by simp [ho])⟩
  | some o =>
      rw [ho] at h
      simp only at h
      split at h
      · next hless =>
          cases h
          exact ⟨0, .stop (by simpa [ho] using hless)⟩
      · next hless =>
          obtain ⟨right, hright, h⟩ := bind_ok h
          obtain ⟨above, -, h⟩ := bind_ok h
          have hsize : right.rest.size < ts.length := size_of_bare hright
          obtain ⟨a, ha⟩ := takes_of_expression hright
          obtain ⟨b, hb⟩ := takes_of_climb h
          exact ⟨_, .climb ho (Nat.not_lt.mp hless) ha hb⟩
termination_by 5 * left.rest.size
decreasing_by
  · show 5 * ts.length + 2 < _
    omega
  · omega

theorem takes_of_unary {c : Cursor} {t : Subtree} (h : bare (unary c) = .ok t) :
    ∃ d, Takes .unary c.tokens d [t.formula] t.rest.tokens := by
  rcases hc : c with ⟨_ | ⟨token, ts⟩, n⟩
  · rw [hc, unary_nil] at h
    cases h
  have hts : c.size = ts.length + 1 := by rw [hc]; rfl
  rw [hc] at h
  by_cases hminus : token = .minus
  · subst hminus
    rw [unary_minus] at h
    split at h
    · cases h
    obtain ⟨s, hs, h⟩ := bind_ok h
    obtain ⟨height, -, rfl⟩ := map_ok h
    obtain ⟨d, hd⟩ := takes_of_unary hs
    exact ⟨_, hd.minus⟩
  by_cases hplus : token = .plus
  · subst hplus
    rw [unary_plus] at h
    split at h
    · cases h
    obtain ⟨s, hs, rfl⟩ := map_ok h
    obtain ⟨d, hd⟩ := takes_of_unary hs
    exact ⟨_, hd.plus⟩
  rw [unary_cons _ _ _ hminus hplus] at h
  obtain ⟨d, hd⟩ := takes_of_primary h
  exact ⟨d, .unary hminus hplus hd⟩
termination_by 5 * c.size + 1
decreasing_by
  · show 5 * ts.length + 1 < _
    omega
  · show 5 * ts.length + 1 < _
    omega
  · show 5 * ts.length + 4 < _
    omega

theorem takes_of_primary {token : Token} {c : Cursor} {t : Subtree} (h : bare (primary token c) = .ok t) :
    ∃ d, Takes .primary (token :: c.tokens) d [t.formula] t.rest.tokens := by
  cases token with
  | number n =>
      rw [primary] at h
      cases h
      exact ⟨0, .number⟩
  | text s =>
      rw [primary] at h
      cases h
      exact ⟨0, .text⟩
  | failure e =>
      rw [primary] at h
      cases h
      exact ⟨0, .failure⟩
  | opening =>
      rw [primary_opening] at h
      obtain ⟨⟨f, height, ⟨ts, n⟩⟩, hs, h⟩ := bind_ok h
      obtain ⟨d, hd⟩ := takes_of_expression hs
      cases ts with
      | nil => cases h
      | cons token ts => cases token with
        | closing =>
            cases h
            exact ⟨d, hd.enclosed⟩
        | _ => cases h
  | word w =>
      rcases hc : c with ⟨ts, n⟩
      rw [hc] at h
      by_cases hopening : ts.head? = some .opening
      · obtain ⟨us, rfl⟩ := List.head?_eq_some_iff.mp hopening
        have hus : c.size = us.length + 1 := by rw [hc]; rfl
        rw [primary_call] at h
        obtain ⟨a, ha, h⟩ := bind_ok h
        obtain ⟨height, -, rfl⟩ := map_ok h
        obtain ⟨d, hd⟩ := takes_of_arguments ha
        exact ⟨d, hd.call⟩
      · rw [primary_word _ _ _ hopening] at h
        exact takes_of_plainWord hopening h
  | _ => simp [primary, bare, Except.map] at h
termination_by 5 * c.size + 4
decreasing_by
  · show 5 * us.length + 4 < _
    omega
  · omega

theorem takes_of_arguments {c : Cursor} {a : Arguments} (h : bare (arguments c) = .ok a) :
    ∃ d, Takes .arguments c.tokens d a.formulas a.rest.tokens := by
  rcases hc : c with ⟨ts, n⟩
  have hts : c.size = ts.length := by rw [hc]; rfl
  rw [hc] at h
  by_cases hclosing : ts.head? = some .closing
  · obtain ⟨us, rfl⟩ := List.head?_eq_some_iff.mp hclosing
    rw [arguments_closing] at h
    cases h
    exact ⟨0, .noArgument⟩
  · rw [arguments_eq _ _ hclosing] at h
    obtain ⟨d, hd⟩ := takes_of_moreArguments h
    exact ⟨d, .arguments hclosing hd⟩
termination_by 5 * c.size + 4
decreasing_by
  show 5 * ts.length + 3 < _
  omega

theorem takes_of_moreArguments {c : Cursor} {a : Arguments} (h : bare (moreArguments c) = .ok a) :
    ∃ d, Takes .moreArguments c.tokens d a.formulas a.rest.tokens := by
  rw [moreArguments_eq] at h
  obtain ⟨⟨f, height, ⟨_ | ⟨token, us⟩, n⟩⟩, hs, h⟩ := bind_ok h
  · cases h
  have hsize : us.length + 1 < c.size := size_of_bare hs
  obtain ⟨d, hd⟩ := takes_of_expression hs
  cases token with
  | comma =>
      obtain ⟨more, hmore, rfl⟩ := map_ok h
      obtain ⟨e, he⟩ := takes_of_moreArguments hmore
      exact ⟨_, hd.argument he⟩
  | closing =>
      cases h
      exact ⟨d, hd.lastArgument⟩
  | _ => cases h
termination_by 5 * c.size + 3
decreasing_by
  · omega
  · show 5 * us.length + 3 < _
    omega

end

end Cursor

theorem Takes.ne_nil {least d : Nat} {f : Formula} {ts rest : List Token}
    (h : Takes (.expression least) ts d [f] rest) : ts ≠ [] := by
  rintro rfl
  cases h with
  | expression h _ => cases h

namespace Formula

open Cursor

variable {d : Nat} {f : Formula} {ts : List Token}

theorem ofTokens_eq (hts : ts ≠ []) : ofTokens ts =
    (bare (expression 0 ⟨ts, 0⟩)).bind fun t =>
      match t.rest.tokens with
      | [] => .ok t.formula
      | token :: _ => .error (.trailingToken token) := by
  rw [ofTokens, if_neg (by simpa using hts)]
  cases expression 0 ⟨ts, 0⟩ <;> rfl

theorem ofTokens_of_spells (h : Spells d (.stratum .comparison f) ts) :
    ofTokens ts = if d < maxNesting ∧ f.height ≤ maxNesting then .ok f else .error .tooDeep := by
  have htakes := takes_expression_iff.mpr h
  rw [ofTokens_eq htakes.ne_nil, answers_of_takes htakes 0 (Nat.zero_le _)]
  split
  · next hlimits => rw [within_ok (by omega) hlimits.2]; rfl
  · next hlimits => rw [within_error (by omega)]; rfl

theorem spelledBy_of_ofTokens (h : ofTokens ts = .ok f) : f.SpelledBy ts := by
  by_cases hts : ts = []
  · subst hts
    cases h
  rw [ofTokens_eq hts] at h
  obtain ⟨⟨g, height, ⟨_ | ⟨token, us⟩, n⟩⟩, ht, h⟩ := bind_ok h
  · cases h
    obtain ⟨d, hd⟩ := takes_of_expression ht
    obtain ⟨e, rfl⟩ := depth_of_takes hd
    exact ⟨e, takes_expression_iff.mp hd⟩
  · cases h

theorem ofTokens_eq_ok_iff :
    ofTokens ts = .ok f ↔ ∃ d < maxNesting, f.height ≤ maxNesting ∧ Spells d (.stratum .comparison f) ts := by
  constructor
  · intro h
    obtain ⟨d, hd⟩ := spelledBy_of_ofTokens h
    rw [ofTokens_of_spells hd] at h
    split at h
    · next hlimits => exact ⟨d, hlimits.1, hlimits.2, hd⟩
    · cases h
  · rintro ⟨d, hdepth, hheight, hd⟩
    rw [ofTokens_of_spells hd, if_pos ⟨hdepth, hheight⟩]

variable {s : String}

theorem parse_of_scan (h : Token.scan (body s) = .ok ts) :
    parse s = (ofTokens ts).mapError fun e => .malformed e.message := by
  rw [parse, read, h]
  simp only
  cases ofTokens ts <;> rfl

/-- The parser follows the grammar: what it reads is spelled by the tokens, and what they spell it reads, or refuses for
its nesting alone. -/
theorem parse_follows_grammar (h : Token.scan (body s) = .ok ts) :
    (∀ f : Formula, parse s = .ok f → f.SpelledBy ts) ∧
    (∀ f : Formula, f.SpelledBy ts → parse s = .ok f ∨ parse s = .error (.malformed "formula nested too deeply")) ∧
    ∀ f g : Formula, f.SpelledBy ts → g.SpelledBy ts → f = g := by
  rw [parse_of_scan h]
  refine ⟨fun f hf => ?_, fun f hf => ?_, fun f g => SpelledBy.unique⟩
  · cases hread : ofTokens ts with
    | error e =>
        rw [hread] at hf
        cases hf
    | ok g =>
        rw [hread] at hf
        cases hf
        exact spelledBy_of_ofTokens hread
  · obtain ⟨d, hd⟩ := hf
    rw [ofTokens_of_spells hd]
    split
    · exact .inl rfl
    · exact .inr rfl

theorem parse_follows_grammar_signs :
    parse " = a - b - -c^d" = .ok (.binary .subtract (.binary .subtract (.name "a") (.name "b"))
      (.binary .power (.negate (.name "c")) (.name "d"))) ∧
    SpelledBy (.binary .subtract (.binary .subtract (.name "a") (.name "b"))
      (.binary .power (.negate (.name "c")) (.name "d")))
      [.word "a", .minus, .word "b", .minus, .minus, .word "c", .operator .power, .word "d"] := by
  have hscan : Token.scan (body " = a - b - -c^d") =
      .ok [.word "a", .minus, .word "b", .minus, .minus, .word "c", .operator .power, .word "d"] := by decide +kernel
  have hparse : parse " = a - b - -c^d" = .ok (.binary .subtract (.binary .subtract (.name "a") (.name "b"))
      (.binary .power (.negate (.name "c")) (.name "d"))) := by cbv
  exact ⟨hparse, (parse_follows_grammar hscan).1 _ hparse⟩

end Formula

end LiveSheet
