import DocMatch.Proofs.Expression.Number

/-!
The grammar of calls. What follows the opening parenthesis of a call is laid out as `Arguments`
says, with white space wherever that leaves room for it, and the recognizers accept exactly these
layouts. Main statement: `arguments?_eq_some_iff`.
-/

namespace DocMatch.Expression

open Binary64 (AllDigits IsDecimal)

def Blanks (w : List Char) : Prop := ∀ c ∈ w, isBlank c = true

/-- The text of a timestamp: no white space, no comma and no closing parenthesis in it. -/
structure IsToken (t : List Char) : Prop where
  nonempty : t ≠ []
  free : ∀ c ∈ t, isTokenEnd c = false

/-- A call, its literals as they are written. -/
inductive Call where
  | beEmpty
  | not
  | beTimestamp (token digits : List Char)
  | beNumerically (comparison : Comparison) (tokens : List (List Char))

def Call.callee : Call → Callee
  | beEmpty => .beEmpty
  | not => .not
  | beTimestamp .. => .beTimestamp
  | beNumerically .. => .beNumerically

inductive Numbers : List Char → List (List Char) → Prop where
  | last {v n w : List Char} : Blanks v → IsDecimal n → Blanks w → Numbers (v ++ (n ++ w)) [n]
  | more {v n w rest : List Char} {tokens : List (List Char)} :
      Blanks v → IsDecimal n → Blanks w → Numbers rest tokens →
      Numbers (v ++ (n ++ (w ++ ',' :: rest))) (n :: tokens)

def closing : List Char := [')', '}', '}']

/-- The rest of a call after its opening parenthesis. -/
inductive Arguments : Call → List Char → Prop where
  | beEmpty {w : List Char} : Blanks w → Arguments .beEmpty (w ++ closing)
  | not {v w x : List Char} :
      Blanks v → Blanks w → Blanks x →
      Arguments .not (v ++ ("BeEmpty(".toList ++ (w ++ ')' :: (x ++ closing))))
  | beTimestamp {v t w x d y : List Char} :
      Blanks v → IsToken t → Blanks w → Blanks x → AllDigits d → d ≠ [] → Blanks y →
      Arguments (.beTimestamp t d) (v ++ (t ++ (w ++ ',' :: (x ++ (d ++ (y ++ closing))))))
  | beNumerically {v w ns : List Char} {c : Comparison} {tokens : List (List Char)} :
      Blanks v → Blanks w → Numbers ns tokens →
      Arguments (.beNumerically c tokens) (v ++ (c.symbol.toList ++ (w ++ ',' :: (ns ++ closing))))

def arguments? : Callee → List Char → Option Call
  | .beEmpty, s => (emptyArguments? s).map fun _ => .beEmpty
  | .not, s => (notArguments? s).map fun _ => .not
  | .beTimestamp, s => (timestampArguments? s).map fun (token, digits) => .beTimestamp token digits
  | .beNumerically, s => (numberArguments? s).map fun (c, tokens) => .beNumerically c tokens

section

variable {s t w : List Char} {c : Char}

theorem blanks_takeWhile (s : List Char) : Blanks (s.takeWhile isBlank) :=
  List.all_eq_true.1 (List.all_takeWhile ..)

theorem dropBlanks_append (hw : Blanks w) (ht : ∀ c ∈ t.head?, isBlank c = false) :
    dropBlanks (w ++ t) = t :=
  (span_append hw ht).2

theorem dropBlanks_eq_iff (ht : ∀ c ∈ t.head?, isBlank c = false) :
    dropBlanks s = t ↔ ∃ w, Blanks w ∧ s = w ++ t := by
  constructor
  · rintro rfl
    exact ⟨_, blanks_takeWhile s, (List.takeWhile_append_dropWhile ..).symm⟩
  · rintro ⟨w, hw, rfl⟩
    exact dropBlanks_append hw ht

theorem isBlank_head?_cons (hc : isBlank c = false) (t : List Char) :
    ∀ b ∈ (c :: t).head?, isBlank b = false := by
  intro b hb
  obtain rfl := Option.some.inj hb
  exact hc

theorem closes_dropBlanks_iff :
    closes (dropBlanks s) = true ↔ ∃ w, Blanks w ∧ s = w ++ closing := by
  rw [closes, decide_eq_true_iff]
  exact dropBlanks_eq_iff (isBlank_head?_cons (by decide) _)

theorem dropWord?_dropBlanks_iff {word : List Char} (hc : isBlank c = false) :
    dropWord? (c :: word) (dropBlanks s) = some t ↔
      ∃ w, Blanks w ∧ s = w ++ (c :: (word ++ t)) := by
  rw [dropWord?_eq_some_iff]
  exact dropBlanks_eq_iff (isBlank_head?_cons hc _)

theorem isTokenEnd_of_isBlank (h : isBlank c = true) : isTokenEnd c = true := by
  simp [isTokenEnd, h]

theorem isBlank_cases (h : isBlank c = true) : c = ' ' ∨ c = '\t' ∨ c = '\r' ∨ c = '\n' := by
  simpa [isBlank, or_assoc] using h

theorem exists_blanks (s : List Char) : ∃ w, Blanks w ∧ s = w ++ dropBlanks s :=
  ⟨_, blanks_takeWhile s, (List.takeWhile_append_dropWhile ..).symm⟩

theorem isBlank_head?_of_isDecimal {n : List Char} (hn : IsDecimal n) (t : List Char) :
    ∀ c ∈ (n ++ t).head?, isBlank c = false := by
  obtain ⟨b, n', rfl⟩ := List.exists_cons_of_ne_nil hn.ne_nil
  refine isBlank_head?_cons (Bool.eq_false_iff.2 fun hb => ?_) (n' ++ t)
  have hlow : 0x21 ≤ b.toNat := (hn.shows b (List.mem_cons_self ..)).1
  rcases isBlank_cases hb with rfl | rfl | rfl | rfl <;> exact absurd hlow (by decide)

theorem IsToken.takeWhile_append (ht : IsToken t) {r : List Char}
    (hr : ∀ c ∈ r.head?, isTokenEnd c = true) :
    (t ++ r).takeWhile (!isTokenEnd ·) = t ∧ (t ++ r).dropWhile (!isTokenEnd ·) = r := by
  have hfree : ∀ c ∈ t, (!isTokenEnd c) = true := fun c hc => by rw [ht.free c hc]; rfl
  exact span_append hfree fun c hc => by rw [hr c hc]; rfl

theorem IsToken.isBlank_head? (ht : IsToken t) (r : List Char) :
    ∀ c ∈ (t ++ r).head?, isBlank c = false := by
  obtain ⟨b, t', rfl⟩ := List.exists_cons_of_ne_nil ht.nonempty
  refine isBlank_head?_cons (Bool.eq_false_iff.2 fun hb => ?_) (t' ++ r)
  exact absurd (isTokenEnd_of_isBlank hb) (by simp [ht.free b (List.mem_cons_self ..)])

theorem head?_blanks_append {P : Char → Prop} (hw : Blanks w) (hblank : ∀ c, isBlank c = true → P c)
    (ht : ∀ c ∈ t.head?, P c) : ∀ c ∈ (w ++ t).head?, P c := by
  cases w with
  | nil => exact ht
  | cons b w =>
    intro c hc
    obtain rfl : b = c := Option.some.inj hc
    exact hblank b (hw b (List.mem_cons_self ..))

end

/-- What follows a number, up to the comma or the end of the call, is no part of it. -/
theorem endsNumber_blanks_append {w t : List Char} (hw : Blanks w) (ht : EndsNumber t) :
    EndsNumber (w ++ t) :=
  head?_blanks_append hw
    (fun c hc => by rcases isBlank_cases hc with rfl | rfl | rfl | rfl <;> decide) ht

theorem emptyArguments?_eq_some_iff {s : List Char} :
    emptyArguments? s = some () ↔ Arguments .beEmpty s := by
  have hshape : Arguments .beEmpty s ↔ ∃ w, Blanks w ∧ s = w ++ closing := by
    constructor
    · rintro ⟨hw⟩
      exact ⟨_, hw, rfl⟩
    · rintro ⟨w, hw, rfl⟩
      exact .beEmpty hw
  rw [hshape, ← closes_dropBlanks_iff, emptyArguments?]
  simp

theorem notArguments?_eq_some_iff {s : List Char} :
    notArguments? s = some () ↔ Arguments .not s := by
  have hword : "BeEmpty(".toList = 'B' :: "eEmpty(".toList := by decide
  have hblank : isBlank 'B' = false ∧ isBlank ')' = false := by decide
  simp only [notArguments?, Option.bind_eq_bind, Option.bind_eq_some_iff, hword,
    dropWord?_dropBlanks_iff hblank.1, dropWord?_dropBlanks_iff hblank.2,
    Option.ite_none_right_eq_some, closes_dropBlanks_iff]
  constructor
  · rintro ⟨_, ⟨v, hv, rfl⟩, _, ⟨w, hw, rfl⟩, ⟨x, hx, rfl⟩, -⟩
    exact .not hv hw hx
  · intro h
    cases h with
    | not hv hw hx =>
      exact ⟨_, ⟨_, hv, rfl⟩, _, ⟨_, hw, rfl⟩, ⟨_, hx, rfl⟩, trivial⟩

theorem timestampArguments?_sound {s t d : List Char} (h : timestampArguments? s = some (t, d)) :
    Arguments (.beTimestamp t d) s := by
  obtain ⟨v, hv, hs⟩ := exists_blanks s
  unfold timestampArguments? at h
  dsimp only at h
  split at h
  · cases h
  next htoken =>
    obtain ⟨s₁, hcomma, h⟩ := Option.bind_eq_some_iff.1 h
    obtain ⟨w, hw, hs₁⟩ := (dropWord?_dropBlanks_iff (by decide)).1 hcomma
    obtain ⟨x, hx, hs₂⟩ := exists_blanks s₁
    split at h
    · cases h
    next hdigits =>
      split at h
      next hcloses =>
        obtain ⟨y, hy, hs₃⟩ := closes_dropBlanks_iff.1 hcloses
        obtain ⟨rfl, rfl⟩ := Prod.mk.inj (Option.some.inj h)
        have hfree : ∀ c ∈ (dropBlanks s).takeWhile (!isTokenEnd ·), (!isTokenEnd c) = true :=
          List.all_eq_true.1 (List.all_takeWhile ..)
        have hlayout := Arguments.beTimestamp hv
          ⟨mt List.isEmpty_iff.2 htoken, fun c hc => by simpa using hfree c hc⟩ hw hx
          (allDigits_takeWhile (dropBlanks s₁)) (mt List.isEmpty_iff.2 hdigits) hy
        rw [List.nil_append] at hs₁
        rwa [← hs₃, List.takeWhile_append_dropWhile, ← hs₂, ← hs₁, List.takeWhile_append_dropWhile,
          ← hs] at hlayout
      · cases h

theorem timestampArguments?_complete {s t d : List Char} (h : Arguments (.beTimestamp t d) s) :
    timestampArguments? s = some (t, d) := by
  cases h with
  | @beTimestamp v _ w x _ y hv ht hw hx hd hne hy =>
    obtain ⟨htake, hdrop⟩ := ht.takeWhile_append (r := w ++ ',' :: (x ++ (d ++ (y ++ closing))))
      (head?_blanks_append hw (fun c => isTokenEnd_of_isBlank) (by simp [isTokenEnd]))
    obtain ⟨hdtake, hddrop⟩ := span_append (t := y ++ closing) hd
      fun c hc => (endsNumber_blanks_append hy (endsNumber_cons (by decide)) c hc).1
    have hdecimal : IsDecimal d := by simpa using IsDecimal.parts (.inl rfl) (.whole hd hne) .none
    have hcomma : dropWord? [','] (dropBlanks (w ++ ',' :: (x ++ (d ++ (y ++ closing))))) =
        some (x ++ (d ++ (y ++ closing))) :=
      (dropWord?_dropBlanks_iff (by decide)).2 ⟨w, hw, rfl⟩
    have hcloses : closes (dropBlanks (y ++ closing)) = true :=
      closes_dropBlanks_iff.2 ⟨y, hy, rfl⟩
    unfold timestampArguments?
    simp only [dropBlanks_append hv (ht.isBlank_head? _), htake, hdrop, hcomma,
      Option.bind_eq_bind, Option.bind_some,
      dropBlanks_append hx (isBlank_head?_of_isDecimal hdecimal _), hdtake, hddrop, hcloses,
      List.isEmpty_iff, ht.nonempty, hne]
    rfl

section

variable {s t token : List Char} (hn : numberToken? (dropBlanks s) = some (token, t))

include hn

theorem numbers?_of_comma {u : List Char} (hc : dropBlanks t = ',' :: u) :
    numbers? s = (numbers? u).map (token :: ·) := by
  rw [numbers?]
  split
  next hnone => cases hnone.symm.trans hn
  next token' t' hsome =>
    obtain ⟨rfl, rfl⟩ := Prod.mk.inj (Option.some.inj (hsome.symm.trans hn))
    split
    next u' hcomma =>
      obtain rfl : u' = u := (List.cons.inj (hcomma.symm.trans hc)).2
      rfl
    next hne => exact absurd hc (hne u)

theorem numbers?_of_closes (hc : closes (dropBlanks t) = true) : numbers? s = some [token] := by
  rw [numbers?]
  split
  next hnone => cases hnone.symm.trans hn
  next token' t' hsome =>
    obtain ⟨rfl, rfl⟩ := Prod.mk.inj (Option.some.inj (hsome.symm.trans hn))
    split
    next u hcomma =>
      rw [hcomma] at hc
      simp [closes] at hc
    next => exact if_pos hc

end

theorem numbers?_sound {s : List Char} {tokens : List (List Char)} (h : numbers? s = some tokens) :
    ∃ ns, Numbers ns tokens ∧ s = ns ++ closing := by
  fun_induction numbers? s generalizing tokens with
  | case1 => cases h
  | case2 s token t hn u hc hlt ih =>
    obtain ⟨more, hmore, rfl⟩ := Option.map_eq_some_iff.1 h
    obtain ⟨rest, hrest, rfl⟩ := ih hmore
    obtain ⟨v, hv, hs⟩ := exists_blanks s
    obtain ⟨w, hw, ht⟩ := exists_blanks t
    obtain ⟨hdecimal, hsplit⟩ := numberToken?_sound hn
    refine ⟨_, .more hv hdecimal hw hrest, ?_⟩
    rw [hs, hsplit, ht, hc]
    simp
  | case3 s token t hn hne hcloses =>
    obtain rfl : [token] = tokens := by simpa using h
    obtain ⟨v, hv, hs⟩ := exists_blanks s
    obtain ⟨w, hw, ht⟩ := closes_dropBlanks_iff.1 hcloses
    obtain ⟨hdecimal, hsplit⟩ := numberToken?_sound hn
    refine ⟨_, .last hv hdecimal hw, ?_⟩
    rw [hs, hsplit, ht]
    simp
  | case4 => cases h

theorem numbers?_complete {ns : List Char} {tokens : List (List Char)} (h : Numbers ns tokens) :
    numbers? (ns ++ closing) = some tokens := by
  -- a number read off its place in the list, whatever ends it
  have htoken {v n t : List Char} (hv : Blanks v) (hn : IsDecimal n) (ht : EndsNumber t) :
      numberToken? (dropBlanks (v ++ (n ++ t))) = some (n, t) := by
    rw [dropBlanks_append hv (isBlank_head?_of_isDecimal hn t), numberToken?_complete hn ht]
  induction h with
  | last hv hn hw =>
    have hend := endsNumber_blanks_append (t := closing) hw (endsNumber_cons (by decide))
    rw [List.append_assoc, List.append_assoc]
    exact numbers?_of_closes (htoken hv hn hend) (closes_dropBlanks_iff.2 ⟨_, hw, rfl⟩)
  | @more v n w rest tokens hv hn hw _ ih =>
    have hend := endsNumber_blanks_append (t := ',' :: (rest ++ closing)) hw
      (endsNumber_cons (by decide))
    have hcomma : dropBlanks (w ++ ',' :: (rest ++ closing)) = ',' :: (rest ++ closing) :=
      dropBlanks_append hw (isBlank_head?_cons (by decide) _)
    simp only [List.append_assoc, List.cons_append]
    rw [numbers?_of_comma (htoken hv hn hend) hcomma, ih]
    rfl

/-- The comparison whose symbol stands in front, where nothing makes the symbol longer. -/
theorem comparison?_complete (c : Comparison) {t : List Char} (ht : t.head? ≠ some '=') :
    comparison? (c.symbol.toList ++ t) = some (c, t) := by
  cases t with
  | nil => cases c <;> decide
  | cons b t =>
    have hb : b ≠ '=' := fun h => ht (congrArg some h)
    cases c <;> simp [comparison?, symbols, Comparison.symbol, dropWord?, hb]

theorem comparison?_sound {s t : List Char} {c : Comparison} (h : comparison? s = some (c, t)) :
    s = c.symbol.toList ++ t := by
  obtain ⟨c', -, hc'⟩ := List.exists_of_findSome?_eq_some h
  obtain ⟨t', ht', heq⟩ := Option.map_eq_some_iff.1 hc'
  obtain ⟨rfl, rfl⟩ := Prod.mk.inj heq
  exact dropWord?_eq_some_iff.1 ht'

theorem numberArguments?_sound {s : List Char} {c : Comparison} {tokens : List (List Char)}
    (h : numberArguments? s = some (c, tokens)) : Arguments (.beNumerically c tokens) s := by
  simp only [numberArguments?, Option.bind_eq_bind, Option.bind_eq_some_iff] at h
  obtain ⟨⟨c', s₁⟩, hcomparison, s₂, hcomma, tokens', htokens, h⟩ := h
  obtain ⟨rfl, rfl⟩ := Prod.mk.inj (Option.some.inj h)
  obtain ⟨v, hv, hs⟩ := exists_blanks s
  obtain ⟨w, hw, rfl⟩ := (dropWord?_dropBlanks_iff (by decide)).1 hcomma
  obtain ⟨ns, hns, rfl⟩ := numbers?_sound htokens
  rw [hs, comparison?_sound hcomparison]
  exact .beNumerically hv hw hns

theorem Arguments.isDecimal {s : List Char} {c : Comparison} {tokens : List (List Char)}
    (h : Arguments (.beNumerically c tokens) s) : ∀ token ∈ tokens, IsDecimal token := by
  cases h with
  | beNumerically _ _ hns =>
    induction hns with
    | last _ hn _ => exact List.forall_mem_singleton.2 hn
    | more _ hn _ _ ih => exact List.forall_mem_cons.2 ⟨hn, ih⟩

theorem numberArguments?_complete {s : List Char} {c : Comparison} {tokens : List (List Char)}
    (h : Arguments (.beNumerically c tokens) s) : numberArguments? s = some (c, tokens) := by
  cases h with
  | @beNumerically v w ns _ _ hv hw hns =>
    have hsymbol : ∀ b ∈ (c.symbol.toList ++ (w ++ ',' :: (ns ++ closing))).head?,
        isBlank b = false := by
      cases c <;> simp [Comparison.symbol, isBlank]
    have hcomma : dropWord? [','] (dropBlanks (w ++ ',' :: (ns ++ closing))) =
        some (ns ++ closing) := (dropWord?_dropBlanks_iff (by decide)).2 ⟨w, hw, rfl⟩
    have hequals : (w ++ ',' :: (ns ++ closing)).head? ≠ some '=' := by
      intro h
      refine head?_blanks_append (P := (· ≠ '=')) hw (fun b hb => ?_) (by simp) '=' h rfl
      rcases isBlank_cases hb with rfl | rfl | rfl | rfl <;> decide
    simp only [numberArguments?, dropBlanks_append hv hsymbol, comparison?_complete c hequals,
      hcomma, numbers?_complete hns, Option.bind_eq_bind, Option.bind_some]

/-- The recognizers accept the layouts of the grammar and nothing else. -/
theorem arguments?_eq_some_iff {f : Callee} {s : List Char} {call : Call} :
    arguments? f s = some call ↔ call.callee = f ∧ Arguments call s := by
  constructor
  · intro h
    cases f with
    | beEmpty =>
      obtain ⟨_, hs, rfl⟩ := Option.map_eq_some_iff.1 h
      exact ⟨rfl, emptyArguments?_eq_some_iff.1 hs⟩
    | not =>
      obtain ⟨_, hs, rfl⟩ := Option.map_eq_some_iff.1 h
      exact ⟨rfl, notArguments?_eq_some_iff.1 hs⟩
    | beTimestamp =>
      obtain ⟨_, hs, rfl⟩ := Option.map_eq_some_iff.1 h
      exact ⟨rfl, timestampArguments?_sound hs⟩
    | beNumerically =>
      obtain ⟨_, hs, rfl⟩ := Option.map_eq_some_iff.1 h
      exact ⟨rfl, numberArguments?_sound hs⟩
  · rintro ⟨rfl, h⟩
    cases call with
    | beEmpty => exact Option.map_eq_some_iff.2 ⟨_, emptyArguments?_eq_some_iff.2 h, rfl⟩
    | not => exact Option.map_eq_some_iff.2 ⟨_, notArguments?_eq_some_iff.2 h, rfl⟩
    | beTimestamp => exact Option.map_eq_some_iff.2 ⟨_, timestampArguments?_complete h, rfl⟩
    | beNumerically => exact Option.map_eq_some_iff.2 ⟨_, numberArguments?_complete h, rfl⟩

end DocMatch.Expression
