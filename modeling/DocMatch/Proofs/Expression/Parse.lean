import DocMatch.Proofs.Raises

/-!
Expressions against their grammar. A text is an expression if it is written as a call from its first
character to its last and its literals denote something; a text that opens no call stands for
itself, and every other text is refused for the reason that holds of it. Main statement:
`parse_grammar`.
-/

namespace DocMatch.Expression

def Writes (s : List Char) (call : Call) : Prop :=
  ∃ rest, Arguments call rest ∧ s = opening call.callee ++ rest

/-- The expression that a call denotes, if its literals denote anything. -/
inductive Call.Denotes : Call → Expression → Prop where
  | beEmpty : Denotes .beEmpty (.emptiness .empty)
  | not : Denotes .not (.emptiness .notEmpty)
  | beTimestamp {t d : List Char} {instant : Timestamp} :
      Timestamp.parse (String.ofList t) = .ok instant → Text.digitsToNat d < 1 <<< 63 →
      Denotes (.beTimestamp t d) (.timestamp instant (Text.digitsToNat d))
  | beNumerically {tokens : List (List Char)} {test : NumberTest} :
      List.Forall₂ (fun token x => Binary64.parse? token = some x) tokens test.operands →
      Denotes (.beNumerically test.comparison tokens) (.number test)

/-- What is wrong with a text that opens a call but is no expression, timestamps aside. -/
inductive Misshapen (s : List Char) : ExpressionFault → Prop where
  | shape {f : Callee} :
      opening f <+: s → (∀ call, ¬ Writes s call) → Misshapen s (.shape f)
  | arity {c : Comparison} {tokens : List (List Char)} :
      Writes s (.beNumerically c tokens) → tokens.length ≠ c.arity →
      Misshapen s (.arity c tokens.length)
  | delta {t d : List Char} {instant : Timestamp} :
      Writes s (.beTimestamp t d) → Timestamp.parse (String.ofList t) = .ok instant →
      1 <<< 63 ≤ Text.digitsToNat d → Misshapen s (.deltaOutOfRange (String.ofList d))

theorem Call.Denotes.callee_eq {call : Call} {e : Expression} (h : call.Denotes e) :
    e.callee = call.callee := by
  cases h <;> rfl

/-- No opening is the beginning of another. -/
theorem recognize?_opening (f : Callee) (rest : List Char) :
    recognize? (opening f ++ rest) = some (f, rest) := by
  cases f <;> rfl

theorem recognize?_eq_some_iff {s rest : List Char} {f : Callee} :
    recognize? s = some (f, rest) ↔ s = opening f ++ rest := by
  constructor
  · intro h
    obtain ⟨g, -, hg⟩ := List.exists_of_findSome?_eq_some h
    obtain ⟨t, ht, heq⟩ := Option.map_eq_some_iff.1 hg
    obtain ⟨rfl, rfl⟩ := Prod.mk.inj heq
    exact dropWord?_eq_some_iff.1 ht
  · rintro rfl
    exact recognize?_opening f rest

theorem recognize?_eq_none_iff {s : List Char} :
    recognize? s = none ↔ ∀ f, ¬ opening f <+: s := by
  constructor
  · rintro h f ⟨rest, rfl⟩
    rw [recognize?_opening] at h
    cases h
  · intro h
    cases hs : recognize? s with
    | none => rfl
    | some p => exact absurd ⟨p.2, (recognize?_eq_some_iff.1 hs).symm⟩ (h p.1)

def Call.evaluate (input : String) : Call → Except MatchError Expression
  | beEmpty => .ok (.emptiness .empty)
  | not => .ok (.emptiness .notEmpty)
  | beTimestamp t d => timestampCall input t d
  | beNumerically c tokens => numberCall input c tokens

theorem call_eq (input : String) (f : Callee) (rest : List Char) :
    call input f rest =
      (arguments? f rest).elim (.error (.invalidExpression input (.shape f)))
        (Call.evaluate input) := by
  cases f with
  | beEmpty => cases h : emptyArguments? rest <;> simp [call, arguments?, h, Call.evaluate]
  | not => cases h : notArguments? rest <;> simp [call, arguments?, h, Call.evaluate]
  | beTimestamp => cases h : timestampArguments? rest <;> simp [call, arguments?, h, Call.evaluate]
  | beNumerically => cases h : numberArguments? rest <;> simp [call, arguments?, h, Call.evaluate]

theorem parse_of_writes {input : String} {call : Call} (h : Writes input.toList call) :
    parse input = (call.evaluate input).map some := by
  obtain ⟨rest, hrest, hs⟩ := h
  have harguments : arguments? call.callee rest = some call := arguments?_eq_some_iff.2 ⟨rfl, hrest⟩
  rw [parse, recognize?_eq_some_iff.2 hs]
  dsimp only
  rw [call_eq, harguments]
  rfl

theorem parse_of_opening {input : String} {f : Callee} (hf : opening f <+: input.toList)
    (h : ∀ call, ¬ Writes input.toList call) :
    parse input = .error (.invalidExpression input (.shape f)) := by
  obtain ⟨rest, hs⟩ := hf
  have harguments : arguments? f rest = none := by
    cases hcall : arguments? f rest with
    | none => rfl
    | some call =>
      obtain ⟨rfl, hrest⟩ := arguments?_eq_some_iff.1 hcall
      exact absurd ⟨rest, hrest, hs.symm⟩ (h call)
  rw [parse, recognize?_eq_some_iff.2 hs.symm]
  dsimp only
  rw [call_eq, harguments]
  rfl

theorem parse_of_literal {input : String} (h : ∀ f, ¬ opening f <+: input.toList) :
    parse input = .ok none := by
  rw [parse, recognize?_eq_none_iff.2 h]

theorem shape_cases (s : List Char) :
    (∀ f, ¬ opening f <+: s) ∨ (∃ call, Writes s call) ∨
      ∃ f, opening f <+: s ∧ ∀ call, ¬ Writes s call := by
  by_cases hwrites : ∃ call, Writes s call
  · exact .inr (.inl hwrites)
  by_cases hopening : ∃ f, opening f <+: s
  · obtain ⟨f, hf⟩ := hopening
    exact .inr (.inr ⟨f, hf, not_exists.1 hwrites⟩)
  · exact .inl (not_exists.1 hopening)

theorem delta?_of_lt {d : List Char} (h : Text.digitsToNat d < 1 <<< 63) :
    delta? d = some (Text.digitsToNat d) :=
  if_pos h

theorem delta?_of_le {d : List Char} (h : 1 <<< 63 ≤ Text.digitsToNat d) : delta? d = none :=
  if_neg (Nat.not_lt.2 h)

theorem operand_eq_ok_iff {token : List Char} {x : Binary64} :
    operand token = .ok x ↔ Binary64.parse? token = some x := by
  unfold operand
  cases Binary64.parse? token with
  | none => simp
  | some y => simp

theorem ofOperands?_eq_some_iff {c : Comparison} {xs : List Binary64} {test : NumberTest} :
    NumberTest.ofOperands? c xs = some test ↔ test.comparison = c ∧ test.operands = xs := by
  constructor
  · intro h
    unfold NumberTest.ofOperands? at h
    split at h
    all_goals cases h <;> exact ⟨rfl, rfl⟩
  · rintro ⟨rfl, rfl⟩
    exact NumberTest.ofOperands?_operands test

theorem length_operands (test : NumberTest) : test.operands.length = test.comparison.arity := by
  cases test <;> rfl

section

variable {input : String} {t d : List Char}

theorem timestampCall_eq {instant : Timestamp}
    (h : Timestamp.parse (String.ofList t) = .ok instant) :
    timestampCall input t d =
      match delta? d with
      | some delta => .ok (.timestamp instant delta)
      | none => .error (.invalidExpression input (.deltaOutOfRange (String.ofList d))) := by
  rw [timestampCall, parseTimestamp, h]
  rfl

theorem timestampCall_of_fault {fault : TimestampFault}
    (h : Timestamp.parse (String.ofList t) = .error fault) :
    timestampCall input t d = .error (.invalidTimestamp (String.ofList t) fault) := by
  rw [timestampCall, parseTimestamp, h]
  rfl

variable {c : Comparison} {tokens : List (List Char)}

theorem numberCall_of_length_ne (h : tokens.length ≠ c.arity) :
    numberCall input c tokens = .error (.invalidExpression input (.arity c tokens.length)) := by
  rw [numberCall]
  dsimp only
  rw [if_pos h]
  rfl

theorem exists_numberTest (h : tokens.length = c.arity)
    (hdecimal : ∀ token ∈ tokens, Binary64.IsDecimal token) :
    ∃ test : NumberTest, test.comparison = c ∧
      List.Forall₂ (fun token x => Binary64.parse? token = some x) tokens test.operands := by
  obtain ⟨xs, hoperands⟩ := exists_mapM_eq_ok fun token htoken =>
    exists_operand (hdecimal token htoken)
  have hxs := mapM_eq_ok_iff.1 hoperands
  have hsome : (NumberTest.ofOperands? c xs).isSome = true := by
    rw [NumberTest.ofOperands?_isSome, ← hxs.length_eq, h, decide_eq_true_iff]
  obtain ⟨test, htest⟩ := Option.isSome_iff_exists.1 hsome
  obtain ⟨rfl, rfl⟩ := ofOperands?_eq_some_iff.1 htest
  exact ⟨test, rfl, hxs.imp fun _ _ => operand_eq_ok_iff.1⟩

end

theorem Call.Denotes.evaluate {call : Call} {e : Expression} (h : call.Denotes e)
    (input : String) : call.evaluate input = .ok e := by
  cases h with
  | beEmpty => rfl
  | not => rfl
  | beTimestamp hinstant hdelta =>
    rw [Call.evaluate, timestampCall_eq hinstant, delta?_of_lt hdelta]
  | @beNumerically tokens test htokens =>
    have hlength : tokens.length = test.comparison.arity := by
      rw [htokens.length_eq, length_operands]
    rw [Call.evaluate, numberCall]
    dsimp only
    rw [if_neg (not_not_intro hlength),
      mapM_eq_ok_iff.2 (htokens.imp fun _ _ => operand_eq_ok_iff.2)]
    simp only [bind, Except.bind, NumberTest.ofOperands?_operands]
    rfl

/-- A call denotes an expression, or holds a text that is no timestamp, or is misshapen. -/
theorem evaluate_cases {s : List Char} {call : Call} (h : Writes s call) :
    (∃ e, call.Denotes e) ∨
      (∃ t d fault, call = .beTimestamp t d ∧ Timestamp.parse (String.ofList t) = .error fault) ∨
      ∃ fault, Misshapen s fault := by
  cases call with
  | beEmpty => exact .inl ⟨_, .beEmpty⟩
  | not => exact .inl ⟨_, .not⟩
  | beTimestamp t d =>
    cases hinstant : Timestamp.parse (String.ofList t) with
    | error fault => exact .inr (.inl ⟨t, d, fault, rfl, hinstant⟩)
    | ok instant =>
      rcases Nat.lt_or_ge (Text.digitsToNat d) (1 <<< 63) with hlt | hle
      · exact .inl ⟨_, .beTimestamp hinstant hlt⟩
      · exact .inr (.inr ⟨_, .delta h hinstant hle⟩)
  | beNumerically c tokens =>
    by_cases hlength : tokens.length = c.arity
    · obtain ⟨rest, hrest, -⟩ := h
      obtain ⟨test, rfl, htokens⟩ := exists_numberTest hlength hrest.isDecimal
      exact .inl ⟨_, .beNumerically htokens⟩
    · exact .inr (.inr ⟨_, .arity h hlength⟩)

inductive Outcome (input : String) : Except MatchError (Option Expression) → Prop where
  | literal : (∀ f, ¬ opening f <+: input.toList) → Outcome input (.ok none)
  | expression {call : Call} {e : Expression} :
      Writes input.toList call → call.Denotes e → Outcome input (.ok (some e))
  | timestamp {t d : List Char} {fault : TimestampFault} :
      Writes input.toList (.beTimestamp t d) → Timestamp.parse (String.ofList t) = .error fault →
      Outcome input (.error (.invalidTimestamp (String.ofList t) fault))
  | misshapen {fault : ExpressionFault} :
      Misshapen input.toList fault → Outcome input (.error (.invalidExpression input fault))

theorem Misshapen.parse_eq {input : String} {fault : ExpressionFault}
    (h : Misshapen input.toList fault) :
    parse input = .error (.invalidExpression input fault) := by
  cases h with
  | shape hf hno => exact parse_of_opening hf hno
  | arity h hlength =>
    rw [parse_of_writes h, Call.evaluate, numberCall_of_length_ne hlength]
    rfl
  | delta h hinstant hle =>
    rw [parse_of_writes h, Call.evaluate, timestampCall_eq hinstant, delta?_of_le hle]
    rfl

theorem Outcome.parse_eq {input : String} {result : Except MatchError (Option Expression)}
    (h : Outcome input result) : parse input = result := by
  cases h with
  | literal h => exact parse_of_literal h
  | expression h he =>
    rw [parse_of_writes h, he.evaluate]
    rfl
  | timestamp h hfault =>
    rw [parse_of_writes h, Call.evaluate, timestampCall_of_fault hfault]
    rfl
  | misshapen h => exact h.parse_eq

theorem exists_outcome (input : String) : ∃ result, Outcome input result := by
  rcases shape_cases input.toList with h | ⟨call, h⟩ | ⟨f, hf, h⟩
  · exact ⟨_, .literal h⟩
  · rcases evaluate_cases h with ⟨e, he⟩ | ⟨t, d, fault, rfl, hfault⟩ | ⟨fault, hfault⟩
    · exact ⟨_, .expression h he⟩
    · exact ⟨_, .timestamp h hfault⟩
    · exact ⟨_, .misshapen hfault⟩
  · exact ⟨_, .misshapen (.shape hf h)⟩

theorem parse_eq_iff {input : String} {result : Except MatchError (Option Expression)} :
    parse input = result ↔ Outcome input result := by
  constructor
  · rintro rfl
    obtain ⟨result, h⟩ := exists_outcome input
    exact h.parse_eq ▸ h
  · exact Outcome.parse_eq

/-- Exactly the texts of the grammar are expressions, with what they denote. -/
theorem parse_grammar (input : String) :
    (parse input = .ok none ↔ ∀ f, ¬ opening f <+: input.toList) ∧
    (∀ e, parse input = .ok (some e) ↔ ∃ call, Writes input.toList call ∧ call.Denotes e) ∧
    (∀ e, parse input = .ok (some e) →
      (recognize? input.toList).map Prod.fst = some e.callee) ∧
    (∀ text fault, parse input = .error (.invalidTimestamp text fault) ↔
      ∃ t d, Writes input.toList (.beTimestamp t d) ∧ text = String.ofList t ∧
        Timestamp.parse text = .error fault) ∧
    (∀ text fault, parse input = .error (.invalidExpression text fault) ↔
      text = input ∧ Misshapen input.toList fault) ∧
    ∀ error, parse input = .error error →
      (∃ text fault, error = .invalidTimestamp text fault) ∨
        ∃ text fault, error = .invalidExpression text fault := by
  simp only [parse_eq_iff]
  refine ⟨⟨?_, .literal⟩, fun e => ⟨?_, ?_⟩, fun e h => ?_, fun text fault => ⟨?_, ?_⟩,
    fun text fault => ⟨?_, ?_⟩, fun error h => ?_⟩
  · rintro ⟨h⟩
    exact h
  · intro h
    cases h with
    | expression hcall he => exact ⟨_, hcall, he⟩
  · rintro ⟨call, hcall, he⟩
    exact .expression hcall he
  · cases h with
    | expression hcall he =>
      obtain ⟨rest, -, hs⟩ := hcall
      rw [recognize?_eq_some_iff.2 hs, Option.map_some, he.callee_eq]
  · intro h
    cases h with
    | timestamp hcall hfault => exact ⟨_, _, hcall, rfl, hfault⟩
  · rintro ⟨t, d, hcall, rfl, hfault⟩
    exact .timestamp hcall hfault
  · intro h
    cases h with
    | misshapen hfault => exact ⟨rfl, hfault⟩
  · rintro ⟨rfl, hfault⟩
    exact .misshapen hfault
  · cases h with
    | timestamp _ _ => exact .inl ⟨_, _, rfl⟩
    | misshapen _ => exact .inr ⟨_, _, rfl⟩

end DocMatch.Expression
