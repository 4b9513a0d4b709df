import LiveSheet.Proofs.Formula.Grammar
import LiveSheet.Proofs.Formula.Word

namespace LiveSheet

inductive Reader where
  | expression (least : Nat)
  | climb (least : Nat) (left : Formula)
  | unary
  | primary
  | arguments
  | moreArguments

/-- `Takes r ts d fs rest`: the reader `r` takes the formulas `fs` off the tokens `ts`, nested `d` deep, and leaves
`rest`. Only arguments are more than one formula. -/
inductive Takes : Reader → List Token → Nat → List Formula → List Token → Prop where
  | expression {least a b : Nat} {f g : Formula} {ts us rest : List Token} : Takes .unary ts a [f] us →
      Takes (.climb least f) us b [g] rest → Takes (.expression least) ts (max a b + 1) [g] rest
  | stop {least : Nat} {f : Formula} {ts : List Token} :
      (∀ token ∈ ts.head?, ∀ o ∈ token.operator?, o.precedence < least) → Takes (.climb least f) ts 0 [f] ts
  | climb {least a b : Nat} {o : Operator} {token : Token} {f g h : Formula} {ts us rest : List Token} :
      token.operator? = some o → least ≤ o.precedence → Takes (.expression (o.precedence + 1)) ts a [g] us →
      Takes (.climb least (.binary o f g)) us b [h] rest → Takes (.climb least f) (token :: ts) (max a b) [h] rest
  | minus {d : Nat} {f : Formula} {ts rest : List Token} : Takes .unary ts d [f] rest →
      Takes .unary (.minus :: ts) (d + 1) [.negate f] rest
  | plus {d : Nat} {f : Formula} {ts rest : List Token} : Takes .unary ts d [f] rest →
      Takes .unary (.plus :: ts) (d + 1) [f] rest
  | unary {d : Nat} {token : Token} {f : Formula} {ts rest : List Token} : token ≠ .minus → token ≠ .plus →
      Takes .primary (token :: ts) d [f] rest → Takes .unary (token :: ts) d [f] rest
  | number {n : Float} {ts : List Token} : Takes .primary (.number n :: ts) 0 [.literal (.number n)] ts
  | text {s : String} {ts : List Token} : Takes .primary (.text s :: ts) 0 [.literal (.text s)] ts
  | failure {e : CellError} {ts : List Token} : Takes .primary (.failure e :: ts) 0 [.failure e] ts
  | enclosed {d : Nat} {f : Formula} {ts rest : List Token} : Takes (.expression 0) ts d [f] (.closing :: rest) →
      Takes .primary (.opening :: ts) d [f] rest
  | call {d : Nat} {w : String} {fs : List Formula} {ts rest : List Token} : Takes .arguments ts d fs rest →
      Takes .primary (.word w :: .opening :: ts) d [.call (Text.upperAscii w) fs] rest
  | cell {w : String} {a : Address} {ts : List Token} : Address.ofWord? w = some a → ts.head? ≠ some .opening →
      ts.head? ≠ some .colon → Takes .primary (.word w :: ts) 0 [.cell a] ts
  | range {v w : String} {a b : Address} {ts : List Token} : Address.ofWord? v = some a →
      Address.ofWord? w = some b → Takes .primary (.word v :: .colon :: .word w :: ts) 0 [.range a b] ts
  | name {w : String} {ts : List Token} : Address.ofWord? w = none → '$' ∉ w.toList → ts.head? ≠ some .opening →
      Takes .primary (.word w :: ts) 0 [.ofName w] ts
  | noArgument {ts : List Token} : Takes .arguments (.closing :: ts) 0 [] ts
  | arguments {d : Nat} {fs : List Formula} {ts rest : List Token} : ts.head? ≠ some .closing →
      Takes .moreArguments ts d fs rest → Takes .arguments ts d fs rest
  | lastArgument {d : Nat} {f : Formula} {ts rest : List Token} : Takes (.expression 0) ts d [f] (.closing :: rest) →
      Takes .moreArguments ts d [f] rest
  | argument {a b : Nat} {f : Formula} {fs : List Formula} {ts us rest : List Token} :
      Takes (.expression 0) ts a [f] (.comma :: us) → Takes .moreArguments us b fs rest →
      Takes .moreArguments ts (max a b) (f :: fs) rest

namespace Takes

variable {r : Reader} {d d' : Nat} {fs fs' : List Formula} {ts rest rest' : List Token}

theorem unique (h : Takes r ts d fs rest) (h' : Takes r ts d' fs' rest') : d = d' ∧ fs = fs' ∧ rest = rest' := by
  induction h generalizing d' fs' rest' with
  | expression _ _ ihleft ihclimb =>
      cases h' with
      | expression hleft hclimb =>
          obtain ⟨rfl, hsame, rfl⟩ := ihleft hleft
          cases hsame
          obtain ⟨rfl, hresult, rfl⟩ := ihclimb hclimb
          exact ⟨rfl, hresult, rfl⟩
  | stop hstop =>
      cases h' with
      | stop => exact ⟨rfl, rfl, rfl⟩
      | climb hop hle => exact absurd (hstop _ rfl _ hop) (Nat.not_lt.mpr hle)
  | climb hop hle _ _ ihright ihclimb =>
      cases h' with
      | stop hstop => exact absurd (hstop _ rfl _ hop) (Nat.not_lt.mpr hle)
      | climb hop' _ hright hclimb =>
          obtain rfl := Option.some.inj (hop.symm.trans hop')
          obtain ⟨rfl, hsame, rfl⟩ := ihright hright
          cases hsame
          obtain ⟨rfl, hresult, rfl⟩ := ihclimb hclimb
          exact ⟨rfl, hresult, rfl⟩
  | minus _ ih =>
      cases h' with
      | minus h' =>
          obtain ⟨rfl, heq, rfl⟩ := ih h'
          cases heq
          exact ⟨rfl, rfl, rfl⟩
      | unary hne => exact absurd rfl hne
  | plus _ ih =>
      cases h' with
      | plus h' =>
          obtain ⟨rfl, heq, rfl⟩ := ih h'
          cases heq
          exact ⟨rfl, rfl, rfl⟩
      | unary _ hne => exact absurd rfl hne
  | unary hminus hplus _ ih =>
      cases h' with
      | minus => exact absurd rfl hminus
      | plus => exact absurd rfl hplus
      | unary _ _ h' => exact ih h'
  | number | text | failure =>
      cases h'
      exact ⟨rfl, rfl, rfl⟩
  | enclosed _ ih =>
      cases h' with
      | enclosed h' =>
          obtain ⟨rfl, heq, hrest⟩ := ih h'
          cases heq
          cases hrest
          exact ⟨rfl, rfl, rfl⟩
  | call _ ih =>
      cases h' with
      | call h' =>
          obtain ⟨rfl, rfl, rfl⟩ := ih h'
          exact ⟨rfl, rfl, rfl⟩
      | cell _ hne => exact absurd rfl hne
      | name _ _ hne => exact absurd rfl hne
  | cell haddress hopening hcolon =>
      cases h' with
      | call => exact absurd rfl hopening
      | cell haddress' =>
          obtain rfl := Option.some.inj (haddress.symm.trans haddress')
          exact ⟨rfl, rfl, rfl⟩
      | range => exact absurd rfl hcolon
      | name hnone => exact absurd (haddress.symm.trans hnone) (by simp)
  | range hstart hstop =>
      cases h' with
      | cell _ _ hne => exact absurd rfl hne
      | range hstart' hstop' =>
          obtain rfl := Option.some.inj (hstart.symm.trans hstart')
          obtain rfl := Option.some.inj (hstop.symm.trans hstop')
          exact ⟨rfl, rfl, rfl⟩
      | name hnone => exact absurd (hstart.symm.trans hnone) (by simp)
  | name hnone _ hopening =>
      cases h' with
      | call => exact absurd rfl hopening
      | cell haddress => exact absurd (haddress.symm.trans hnone) (by simp)
      | range hstart => exact absurd (hstart.symm.trans hnone) (by simp)
      | name => exact ⟨rfl, rfl, rfl⟩
  | noArgument =>
      cases h' with
      | noArgument => exact ⟨rfl, rfl, rfl⟩
      | arguments hne => exact absurd rfl hne
  | arguments hne _ ih =>
      cases h' with
      | noArgument => exact absurd rfl hne
      | arguments _ h' => exact ih h'
  | lastArgument _ ih =>
      cases h' with
      | lastArgument h' =>
          obtain ⟨rfl, heq, hrest⟩ := ih h'
          cases heq
          cases hrest
          exact ⟨rfl, rfl, rfl⟩
      | argument h' _ =>
          obtain ⟨-, -, hrest⟩ := ih h'
          cases hrest
  | argument _ _ ih ihmore =>
      cases h' with
      | lastArgument h' =>
          obtain ⟨-, -, hrest⟩ := ih h'
          cases hrest
      | argument h' hmore =>
          obtain ⟨rfl, heq, hrest⟩ := ih h'
          cases heq
          cases hrest
          obtain ⟨rfl, rfl, rfl⟩ := ihmore hmore
          exact ⟨rfl, rfl, rfl⟩

end Takes

def Bounded (limit : Nat) (ts : List Token) : Prop := ∀ token ∈ ts.head?, ∀ o ∈ token.operator?, o.precedence ≤ limit

theorem Bounded.mono {m n : Nat} {ts : List Token} (h : Bounded m ts) (hmn : m ≤ n) : Bounded n ts :=
  fun token ht o ho => Nat.le_trans (h token ht o ho) hmn

def Reader.IsGrounded (ts : List Token) (d : Nat) (rest : List Token) : Reader → List Formula → Prop
  | .expression least, [f] => Bounded (least - 1) rest ∧ ∀ s : Stratum, s.rank = max least 1 →
      ∃ us e, ts = us ++ rest ∧ d = e + 1 ∧ Spells e (.stratum s f) us
  | .climb least l, [f] => Bounded (least - 1) rest ∧ ∀ s t : Stratum, s.rank = max least 1 → s.rank ≤ t.rank →
      Bounded t.rank ts → ∀ e us, Spells e (.stratum t l) us →
        ∃ vs, ts = vs ++ rest ∧ Spells (max e d) (.stratum s f) (us ++ vs)
  | .unary, [f] => ∃ us, ts = us ++ rest ∧ Spells d (.stratum .sign f) us
  | .primary, [f] => ∃ us, ts = us ++ rest ∧ Spells d (.primary f) us
  | .arguments, fs => ∃ us, ts = us ++ .closing :: rest ∧ Spells d (.arguments fs) us
  | .moreArguments, f :: fs => ∃ us, ts = us ++ .closing :: rest ∧ Spells d (.arguments (f :: fs)) us
  | _, _ => False

theorem Spells.ofName {w : String} (hnone : Address.ofWord? w = none) (hanchor : '$' ∉ w.toList) :
    Spells 0 (.primary (.ofName w)) [.word w] := by
  unfold Formula.ofName
  split
  · next h => exact .truth true h
  · next h => exact .truth false h
  · next htrue hfalse =>
      split
      · next h => exact .rowCount h
      · next h => exact .name ⟨hnone, hanchor, htrue, hfalse, h⟩

theorem Bounded.of_operator {limit : Nat} {token : Token} {o : Operator} {ts : List Token}
    (ho : token.operator? = some o) (h : Bounded limit (token :: ts)) : o.precedence ≤ limit :=
  h token rfl o ho

theorem Bounded.cons {limit : Nat} {token : Token} {o : Operator} (ts : List Token)
    (ho : token.operator? = some o) (h : o.precedence ≤ limit) : Bounded limit (token :: ts) := by
  rintro u hu p hp
  cases hu
  cases ho.symm.trans hp
  exact h

namespace Takes

variable {r : Reader} {d : Nat} {f : Formula} {fs : List Formula} {ts rest : List Token}

theorem isGrounded (h : Takes r ts d fs rest) : r.IsGrounded ts d rest fs := by
  induction h with
  | @expression least a b f g ts us rest _ _ ihleft ihclimb =>
      obtain ⟨vs, rfl, hleft⟩ := ihleft
      obtain ⟨hbound, hclimb⟩ := ihclimb
      refine ⟨hbound, fun s hs => ?_⟩
      obtain ⟨ws, rfl, hall⟩ := hclimb s .sign hs s.rank_le
        (fun _ _ o _ => Nat.le_trans (by cases o <;> decide) (Nat.le_refl 6)) a vs hleft
      exact ⟨vs ++ ws, max a b, (List.append_assoc ..).symm, rfl, hall⟩
  | @stop least f ts hstop =>
      refine ⟨fun token ht o ho => Nat.le_sub_one_of_lt (hstop token ht o ho), fun s t _ hst _ e us hl => ?_⟩
      exact ⟨[], rfl, by simpa using hl.loosen hst⟩
  | @climb least a b o token f g h ts us rest ho hle _ _ ihright ihclimb =>
      obtain ⟨hlimit, hright⟩ := ihright
      obtain ⟨hbound, hclimb⟩ := ihclimb
      refine ⟨hbound, fun s t hs _ ht e vs hl => ?_⟩
      obtain ⟨u, v, huv, hou⟩ := Stratum.exists_of_operator o
      have hu : o.precedence = u.rank := Stratum.mem_operators.mp hou
      have hsu : s.rank ≤ u.rank := by
        have := o.one_le_precedence
        omega
      obtain ⟨ws, e', rfl, rfl, hg⟩ := hright v (by rw [Stratum.rank_tighter huv]; omega)
      have hbinary := Spells.binary huv hou ho (hl.loosen (hu ▸ Bounded.of_operator ho ht)) hg
      obtain ⟨xs, rfl, hall⟩ := hclimb s u hs hsu (hlimit.mono (Nat.le_of_eq hu)) _ _ hbinary
      refine ⟨token :: ws ++ xs, by simp, ?_⟩
      rw [Nat.max_assoc] at hall
      simpa using hall
  | minus _ ih =>
      obtain ⟨us, rfl, hus⟩ := ih
      exact ⟨.minus :: us, rfl, hus.minus⟩
  | plus _ ih =>
      obtain ⟨us, rfl, hus⟩ := ih
      exact ⟨.plus :: us, rfl, hus.plus⟩
  | unary _ _ _ ih =>
      obtain ⟨us, hts, hus⟩ := ih
      exact ⟨us, hts, hus.primary⟩
  | number => exact ⟨_, List.singleton_append.symm, .number _⟩
  | text => exact ⟨_, List.singleton_append.symm, .text _⟩
  | failure => exact ⟨_, List.singleton_append.symm, .failure _⟩
  | enclosed _ ih =>
      obtain ⟨us, e, rfl, rfl, hus⟩ := ih.2 .comparison rfl
      exact ⟨.opening :: us ++ [.closing], by simp, hus.enclosed⟩
  | call _ ih =>
      obtain ⟨us, rfl, hus⟩ := ih
      exact ⟨.word _ :: .opening :: us ++ [.closing], by simp, hus.call⟩
  | cell haddress => exact ⟨_, List.singleton_append.symm, .cell haddress⟩
  | range hstart hstop => exact ⟨[_, _, _], rfl, .range hstart hstop⟩
  | name hnone hanchor => exact ⟨_, List.singleton_append.symm, .ofName hnone hanchor⟩
  | noArgument => exact ⟨[], rfl, .noArgument⟩
  | @arguments d fs ts rest _ hmore ih =>
      cases fs with
      | nil => cases hmore
      | cons f fs => exact ih
  | lastArgument _ ih =>
      obtain ⟨us, e, rfl, rfl, hus⟩ := ih.2 .comparison rfl
      exact ⟨us, rfl, hus.lastArgument⟩
  | @argument a b f fs ts us rest _ hmore ih ihmore =>
      obtain ⟨vs, e, rfl, rfl, hvs⟩ := ih.2 .comparison rfl
      cases fs with
      | nil => cases hmore
      | cons g fs =>
          obtain ⟨ws, rfl, hws⟩ := ihmore
          exact ⟨vs ++ .comma :: ws, by simp, hvs.argument hws⟩

theorem head_of_primary (h : Takes .primary ts d [f] rest) :
    ∃ token us, ts = token :: us ∧ token ≠ .minus ∧ token ≠ .plus ∧ token ≠ .closing := by
  cases h <;> exact ⟨_, _, rfl, by simp, by simp, by simp⟩

theorem head_of_unary (h : Takes .unary ts d [f] rest) : ts.head? ≠ some .closing := by
  cases h with
  | minus | plus => simp
  | unary _ _ h =>
      obtain ⟨token, us, hts, -, -, hne⟩ := head_of_primary h
      cases hts
      simpa using hne

theorem head_of_expression {least : Nat} (h : Takes (.expression least) ts d [f] rest) :
    ts.head? ≠ some .closing := by
  cases h with
  | expression h _ => exact head_of_unary h

theorem head_of_moreArguments (h : Takes .moreArguments ts d fs rest) : ts.head? ≠ some .closing := by
  cases h with
  | lastArgument h => exact head_of_expression h
  | argument h _ => exact head_of_expression h

end Takes

def Parted (ts : List Token) : Prop := ts.head? ≠ some .opening ∧ ts.head? ≠ some .colon

theorem Parted.of_operator {token : Token} {o : Operator} (ts : List Token) (ho : token.operator? = some o) :
    Parted (token :: ts) := by
  constructor <;> rintro ⟨⟩ <;> cases ho

def Phrase.IsTaken (d : Nat) (us : List Token) : Phrase → Prop
  | .stratum s f => (∀ rest, Parted rest → Bounded s.rank rest → ∀ least ≤ s.rank, ∀ b g rest',
      Takes (.climb least f) rest b [g] rest' → Takes (.expression least) (us ++ rest) (max d b + 1) [g] rest') ∧
      (s = .sign → ∀ rest, Parted rest → Takes .unary (us ++ rest) d [f] rest)
  | .primary f => ∀ rest, Parted rest → Takes .primary (us ++ rest) d [f] rest
  | .arguments [] => us = [] ∧ d = 0
  | .arguments (f :: fs) => ∀ rest, Takes .moreArguments (us ++ .closing :: rest) d (f :: fs) rest

theorem Phrase.isTaken_sign {d : Nat} {us : List Token} {f : Formula}
    (h : ∀ rest, Parted rest → Takes .unary (us ++ rest) d [f] rest) : Phrase.IsTaken d us (.stratum .sign f) :=
  ⟨fun rest hrest _ _ _ _ _ _ hclimb => .expression (h rest hrest) hclimb, fun _ => h⟩

theorem Phrase.expression_of_isTaken {d : Nat} {us rest : List Token} {f : Formula}
    (h : Phrase.IsTaken d us (.stratum .comparison f)) {token : Token} (hrest : Parted (token :: rest))
    (htoken : token.operator? = none) :
    Takes (.expression 0) (us ++ token :: rest) (d + 1) [f] (token :: rest) := by
  have hnone : ∀ o, o ∉ token.operator? := by simp [htoken]
  simpa using h.1 (token :: rest) hrest (by rintro _ ⟨⟩ o ho; exact absurd ho (hnone o)) 0 (Nat.zero_le _) 0 f _
    (.stop (by rintro _ ⟨⟩ o ho; exact absurd ho (hnone o)))

theorem Takes.ofName {w : String} {f : Formula} {ts : List Token} (hname : Formula.ofName w = f)
    (hnone : Address.ofWord? w = none) (hanchor : '$' ∉ w.toList) (hts : Parted ts) :
    Takes .primary (.word w :: ts) 0 [f] ts := by
  subst hname
  exact .name hnone hanchor hts.1

theorem Spells.isTaken {d : Nat} {p : Phrase} {us : List Token} (h : Spells d p us) : p.IsTaken d us := by
  induction h with
  | tighter hst _ ih =>
      have hrank := Stratum.rank_tighter hst
      refine ⟨fun rest hparted hbound least hle => ?_, fun hs => by subst hs; cases hst⟩
      exact ih.1 rest hparted (hbound.mono (by omega)) least (by omega)
  | @binary s t o token f g d e ts us hst ho htoken _ _ ihleft ihright =>
      have hrank := Stratum.rank_tighter hst
      have hprecedence := Stratum.mem_operators.mp ho
      refine ⟨fun rest hparted hbound least hle b h rest' hclimb => ?_, fun hs => by subst hs; cases hst⟩
      have hright : Takes (.expression (o.precedence + 1)) (us ++ rest) (e + 1) [g] rest := by
        have hstop : Takes (.climb (o.precedence + 1) g) rest 0 [g] rest :=
          .stop fun u hu p hp => Nat.lt_succ_of_le (hprecedence ▸ hbound u hu p hp)
        simpa using ihright.1 rest hparted (hbound.mono (by omega)) (o.precedence + 1) (by omega) 0 g rest hstop
      have hleft := ihleft.1 (token :: (us ++ rest)) (.of_operator _ htoken) (.cons _ htoken (Nat.le_of_eq hprecedence))
        least hle _ h rest' (.climb htoken (hprecedence ▸ hle) hright hclimb)
      simpa [Nat.max_assoc] using hleft
  | minus _ ih => exact Phrase.isTaken_sign fun rest hrest => .minus (ih.2 rfl rest hrest)
  | plus _ ih => exact Phrase.isTaken_sign fun rest hrest => .plus (ih.2 rfl rest hrest)
  | primary _ ih =>
      refine Phrase.isTaken_sign fun rest hrest => ?_
      have h := ih rest hrest
      obtain ⟨token, vs, hvs, hminus, hplus, -⟩ := h.head_of_primary
      rw [hvs] at h ⊢
      exact .unary hminus hplus h
  | number | text | failure => exact fun rest _ => by constructor
  | cell haddress => exact fun rest hrest => .cell haddress hrest.1 hrest.2
  | range hstart hstop => exact fun rest _ => .range hstart hstop
  | @truth w b hw =>
      intro rest hrest
      refine .ofName ?_ (Address.ofWord?_of_upperAscii hw ?_) (not_mem_of_upperAscii hw ?_) hrest
      · cases b <;> simp_all [Formula.ofName]
      · cases b <;> simp
      · cases b <;> decide
  | rowCount hw =>
      intro rest hrest
      refine .ofName ?_ (Address.ofWord?_of_upperAscii hw ?_) (not_mem_of_upperAscii hw (by decide)) hrest
      · simp [Formula.ofName, hw, rowCountName]
      · simp [rowCountName]
  | @name w hname =>
      intro rest hrest
      refine .ofName ?_ hname.noAddress hname.noAnchor hrest
      have := hname.noTruth
      have := hname.noFalsehood
      simp [Formula.ofName, hname.noRowCount]
  | @enclosed f d ts _ ih =>
      intro rest _
      have hclosing : Parted (.closing :: rest) := by constructor <;> simp
      simpa using (Phrase.expression_of_isTaken ih hclosing rfl).enclosed
  | @call w fs d ts _ ih =>
      intro rest _
      rw [List.cons_append, List.cons_append, List.append_assoc, List.singleton_append]
      cases fs with
      | nil =>
          obtain ⟨rfl, rfl⟩ := ih
          exact .call .noArgument
      | cons f fs => exact .call (.arguments (ih rest).head_of_moreArguments (ih rest))
  | noArgument => exact ⟨rfl, rfl⟩
  | lastArgument _ ih =>
      exact fun rest => .lastArgument (Phrase.expression_of_isTaken ih (by constructor <;> simp) rfl)
  | argument _ _ ih ihmore =>
      intro rest
      rw [List.append_assoc, List.cons_append]
      exact .argument (Phrase.expression_of_isTaken ih (by constructor <;> simp) rfl) (ihmore rest)

theorem takes_expression_iff {d : Nat} {f : Formula} {ts : List Token} :
    Takes (.expression 0) ts (d + 1) [f] [] ↔ Spells d (.stratum .comparison f) ts := by
  constructor
  · intro h
    obtain ⟨us, e, rfl, he, hus⟩ := h.isGrounded.2 .comparison rfl
    rw [List.append_nil, Nat.add_right_cancel he]
    exact hus
  · intro h
    have hstop : Takes (.climb 0 f) [] 0 [f] [] := .stop (by simp)
    simpa using h.isTaken.1 [] (by constructor <;> simp) (by simp [Bounded]) 0 (Nat.zero_le _) 0 f [] hstop

theorem depth_of_takes {d : Nat} {f : Formula} {ts rest : List Token} (h : Takes (.expression 0) ts d [f] rest) :
    ∃ e, d = e + 1 := by
  obtain ⟨us, e, -, he, -⟩ := h.isGrounded.2 .comparison rfl
  exact ⟨e, he⟩

theorem Formula.SpelledBy.unique {f g : Formula} {ts : List Token} (hf : f.SpelledBy ts) (hg : g.SpelledBy ts) :
    f = g := by
  obtain ⟨d, hf⟩ := hf
  obtain ⟨e, hg⟩ := hg
  obtain ⟨-, heq, -⟩ := (takes_expression_iff.mpr hf).unique (takes_expression_iff.mpr hg)
  exact (List.cons.inj heq).1

end LiveSheet
