import DocMatch.Proofs.Json.Value

/-!
Passing over a value accepts the written values and nothing else. Main statements:
`skipValue_sound` and `skipValue_complete`.
-/

namespace DocMatch.Json

variable {κ : Type} {Lit : Bytes → κ → Prop}

/-- What may stand after a value: a blank, a comma, a closing bracket, or nothing. -/
def endsValue (t : Bytes) : Bool :=
  t.head?.all fun b => Bytes.isBlank b || b == byte ',' || b == byte ']' || b == byte '}'

theorem endsNumber_of_endsValue {t : Bytes} (ht : endsValue t = true) : endsNumber t = true := by
  cases t with
  | nil => rfl
  | cons b t =>
    simp only [endsValue, List.head?_cons, Option.all_some, Bytes.isBlank, Bool.or_eq_true,
      beq_iff_eq] at ht
    rcases ht with (((((rfl | rfl) | rfl) | rfl) | rfl) | rfl) | rfl <;> rfl

theorem endsValue_blanks {w t : Bytes} (hw : AllBlank w) (ht : endsValue t = true) :
    endsValue (w ++ t) = true := by
  cases w with
  | nil => exact ht
  | cons b w => simp [endsValue, hw b (List.mem_cons_self ..)]

theorem skipWord_complete {word t : Bytes} {s : Bytes} {r : Rest s} (hr : r.bytes = word ++ t) :
    Skips (skipWord word r) t := by
  induction word generalizing r with
  | nil => exact ⟨r, rfl, hr⟩
  | cons w word ih =>
    unfold skipWord
    split
    next h => simp [h] at hr
    next b u h =>
      obtain ⟨rfl, rfl⟩ : b = w ∧ u = word ++ t := by simpa using h.symm.trans hr
      rw [if_pos rfl]
      exact ih rfl

theorem skipWord_sound {word : Bytes} {s : Bytes} {r q : Rest s} (h : skipWord word r = .ok q) :
    r.bytes = word ++ q.bytes := by
  induction word generalizing r with
  | nil =>
    obtain rfl : r = q := Except.ok.inj h
    rfl
  | cons w word ih =>
    unfold skipWord at h
    split at h
    · simp at h
    next b u hr =>
      split at h
      next hb =>
        rw [hr, hb, List.cons_append, ← ih h]
        rfl
      · simp at h

theorem skipColon_complete {v t : Bytes} (hv : AllBlank v) {s : Bytes} {r : Rest s}
    (hr : r.bytes = v ++ byte ':' :: t) : Skips (skipColon r) t := by
  have hr' := skipBlanks_of_append hv (by decide) hr
  unfold skipColon
  split
  next h => simp [h] at hr'
  next b u h =>
    obtain ⟨rfl, rfl⟩ : b = byte ':' ∧ u = t := by simpa using h.symm.trans hr'
    rw [if_pos rfl]
    exact ⟨_, rfl, rfl⟩

theorem skipColon_sound {s : Bytes} {r q : Rest s} (h : skipColon r = .ok q) :
    ∃ v, AllBlank v ∧ r.bytes = v ++ byte ':' :: q.bytes := by
  obtain ⟨v, hv, hr⟩ := exists_blanks r
  unfold skipColon at h
  split at h
  · simp at h
  next b u hb =>
    split at h
    next hcolon =>
      subst hcolon
      obtain rfl : r.skipBlanks.next hb = q := Except.ok.inj h
      exact ⟨v, hv, hr.trans (congrArg (v ++ ·) hb)⟩
    · simp at h

theorem skipName_complete {b v t : Bytes} (hb : IsBody b) (hv : AllBlank v) :
    Skips (skipName (quote b ++ (v ++ byte ':' :: t))) t := by
  obtain ⟨ps, hps⟩ := hb
  rw [quote_append, skipName, if_pos rfl]
  obtain ⟨q, hq, ht⟩ := closeString_complete (r := .tail (byte '"') _) hps rfl
  obtain ⟨e, he, ht'⟩ := skipColon_complete hv ht
  exact ⟨e, by simp only [bind, Except.bind, hq, he], ht'⟩

theorem skipName_sound {s : Bytes} {q : Rest s} (h : skipName s = .ok q) :
    ∃ b v, IsBody b ∧ AllBlank v ∧ s = quote b ++ (v ++ byte ':' :: q.bytes) := by
  cases s with
  | nil => simp [skipName] at h
  | cons c t =>
    rw [skipName] at h
    split at h
    next hc =>
      subst hc
      obtain ⟨e, he, hcolon⟩ := bind_eq_ok_iff.1 h
      obtain ⟨b, hb, ht⟩ := closeString_sound he
      obtain ⟨v, hv, he⟩ := skipColon_sound hcolon
      refine ⟨b, v, hb, hv, ?_⟩
      rw [quote_append, ← he, ← ht]
      rfl
    · simp at h

/-- The bytes of the node are passed over, whatever ends the value. -/
def Passes (n : Node) : Prop :=
  ∀ t, endsValue t = true → Skips (skipValue (n.raw ++ t)) t

theorem skipValue_of_blanks {v w u : Bytes} {c : UInt8} {n : Node} (hv : AllBlank v)
    (hn : n.Written Lit) (hp : Passes n) (hw : AllBlank w) (hc : Bytes.isBlank c = false)
    (hend : endsValue (c :: u) = true) {s : Bytes} {r : Rest s}
    (hr : r.bytes = v ++ (n.raw ++ (w ++ c :: u))) :
    ∃ q, skipValue r.skipBlanks.bytes = .ok q ∧
      (r.skipBlanks.andThen q).skipBlanks.bytes = c :: u := by
  have hpass := hp _ (endsValue_blanks hw hend)
  rw [← (hn.opens.append _).skipBlanks hv hr] at hpass
  obtain ⟨q, hq, hqt⟩ := hpass
  exact ⟨q, hq, skipBlanks_of_append (r := r.skipBlanks.andThen q) hw hc hqt⟩

theorem skipElements_complete {y t : Bytes} {nodes : List Node} (h : Listed Element y nodes)
    (hn : ∀ n ∈ nodes, n.Written Lit) (hp : ∀ n ∈ nodes, Passes n) {s : Bytes} {r : Rest s}
    (hr : r.bytes = y ++ byte ']' :: t) : Skips (skipElements r.skipBlanks) t := by
  induction h generalizing r with
  | @last v x w n hv hx hw =>
    obtain rfl : x = n.raw := hx
    simp only [List.append_assoc] at hr
    obtain ⟨q, hq, hafter⟩ := skipValue_of_blanks hv (hn n (List.mem_cons_self ..))
      (hp n (List.mem_cons_self ..)) hw (by decide) rfl hr
    unfold skipElements
    rw [hq]
    dsimp only
    split
    next h => simp [h] at hafter
    next b u h =>
      obtain ⟨rfl, rfl⟩ : b = byte ']' ∧ u = t := by simpa using h.symm.trans hafter
      rw [if_neg (by decide), if_pos rfl]
      exact ⟨_, rfl, rfl⟩
  | @more v x w y' n ns hv hx hw _ ih =>
    obtain rfl : x = n.raw := hx
    simp only [List.append_assoc, List.cons_append] at hr
    obtain ⟨q, hq, hafter⟩ := skipValue_of_blanks hv (hn n (List.mem_cons_self ..))
      (hp n (List.mem_cons_self ..)) hw (by decide) rfl hr
    unfold skipElements
    rw [hq]
    dsimp only
    split
    next h => simp [h] at hafter
    next b u h =>
      obtain ⟨rfl, rfl⟩ : b = byte ',' ∧ u = y' ++ byte ']' :: t := by
        simpa using h.symm.trans hafter
      rw [if_pos rfl]
      exact ih (fun m hm => hn m (List.mem_cons_of_mem _ hm))
        (fun m hm => hp m (List.mem_cons_of_mem _ hm)) rfl

theorem skipMember_complete {v x w u : Bytes} {c : UInt8} {m : Unit × Node} (hv : AllBlank v)
    (hx : Member Loose x m) (hn : m.2.Written Loose) (hp : Passes m.2) (hw : AllBlank w)
    (hc : Bytes.isBlank c = false) (hend : endsValue (c :: u) = true) {s : Bytes} {r : Rest s}
    (hr : r.bytes = v ++ (x ++ (w ++ c :: u))) :
    ∃ name q, skipName r.skipBlanks.bytes = .ok name ∧
      skipValue name.skipBlanks.bytes = .ok q ∧
      (name.skipBlanks.andThen q).skipBlanks.bytes = c :: u := by
  cases hx with
  | @mk b v' w' k n hb hv' hw' =>
    simp only [List.append_assoc, List.cons_append] at hr
    have hbytes : r.skipBlanks.bytes =
        quote b ++ (v' ++ byte ':' :: (w' ++ (n.raw ++ (w ++ c :: u)))) := by
      rw [quote_append] at hr ⊢
      exact skipBlanks_of_append hv (by decide) hr
    have hname := skipName_complete (t := w' ++ (n.raw ++ (w ++ c :: u))) hb hv'
    rw [← hbytes] at hname
    obtain ⟨name, hname, ht⟩ := hname
    obtain ⟨q, hq, hafter⟩ := skipValue_of_blanks hw' hn hp hw hc hend ht
    exact ⟨name, q, hname, hq, hafter⟩

theorem skipMembers_complete {y t : Bytes} {members : List (Unit × Node)}
    (h : Listed (Member Loose) y members) (hn : ∀ m ∈ members, m.2.Written Loose)
    (hp : ∀ m ∈ members, Passes m.2) {s : Bytes} {r : Rest s}
    (hr : r.bytes = y ++ byte '}' :: t) : Skips (skipMembers r.skipBlanks) t := by
  induction h generalizing r with
  | @last v x w m hv hx hw =>
    simp only [List.append_assoc] at hr
    obtain ⟨name, q, hname, hq, hafter⟩ := skipMember_complete hv hx
      (hn m (List.mem_cons_self ..)) (hp m (List.mem_cons_self ..)) hw (by decide) rfl hr
    unfold skipMembers
    rw [hname]
    dsimp only
    rw [hq]
    dsimp only
    split
    next h => exact absurd (hafter.symm.trans h) (by simp)
    next b u h =>
      obtain ⟨rfl, rfl⟩ : b = byte '}' ∧ u = t := by simpa using h.symm.trans hafter
      rw [if_neg (by decide), if_pos rfl]
      exact ⟨_, rfl, rfl⟩
  | @more v x w y' m ms hv hx hw _ ih =>
    simp only [List.append_assoc, List.cons_append] at hr
    obtain ⟨name, q, hname, hq, hafter⟩ := skipMember_complete hv hx
      (hn m (List.mem_cons_self ..)) (hp m (List.mem_cons_self ..)) hw (by decide) rfl hr
    unfold skipMembers
    rw [hname]
    dsimp only
    rw [hq]
    dsimp only
    split
    next h => exact absurd (hafter.symm.trans h) (by simp)
    next b u h =>
      obtain ⟨rfl, rfl⟩ : b = byte ',' ∧ u = y' ++ byte '}' :: t := by
        simpa using h.symm.trans hafter
      rw [if_pos rfl]
      exact ih (fun m hm => hn m (List.mem_cons_of_mem _ hm))
        (fun m hm => hp m (List.mem_cons_of_mem _ hm)) rfl

theorem skipArray_complete {y : Bytes} {nodes : List Node}
    (h : Enclosed (byte '[') (byte ']') Element y nodes) (hn : ∀ n ∈ nodes, n.Written Lit)
    (hp : ∀ n ∈ nodes, Passes n) : Passes ⟨.array, y⟩ := by
  intro t _
  cases h with
  | @empty w hw =>
    have hclose : (Rest.tail (byte '[') (w ++ [byte ']'] ++ t)).skipBlanks.bytes = byte ']' :: t :=
      skipBlanks_of_append hw (by decide) (by simp [Rest.tail])
    rw [List.cons_append, skipValue, if_neg (by decide), if_neg (by decide), if_neg (by decide),
      if_neg (by decide), if_neg (by decide), if_pos rfl]
    split
    next h => simp [h] at hclose
    next b u h =>
      obtain ⟨rfl, rfl⟩ : b = byte ']' ∧ u = t := by simpa using h.symm.trans hclose
      rw [if_pos rfl]
      exact ⟨_, rfl, rfl⟩
  | @full y _ h =>
    have hr : (Rest.tail (byte '[') (y ++ [byte ']'] ++ t)).bytes = y ++ byte ']' :: t := by
      simp [Rest.tail]
    obtain ⟨b, u, hopen, -, hb, -⟩ :=
      h.opens_skipBlanks (fun x n hmem hx => hx ▸ (hn n hmem).opens) hr
    rw [List.cons_append, skipValue, if_neg (by decide), if_neg (by decide), if_neg (by decide),
      if_neg (by decide), if_neg (by decide), if_pos rfl]
    split
    next h' => simp [h'] at hopen
    next c u' h' =>
      obtain ⟨rfl, rfl⟩ : c = b ∧ u' = u := by simpa using h'.symm.trans hopen
      rw [if_neg hb]
      exact skipElements_complete h hn hp hr

theorem skipObject_complete {y : Bytes} {members : List (Unit × Node)}
    (h : Enclosed (byte '{') (byte '}') (Member Loose) y members)
    (hn : ∀ m ∈ members, m.2.Written Loose) (hp : ∀ m ∈ members, Passes m.2) :
    Passes ⟨.object, y⟩ := by
  intro t _
  cases h with
  | @empty w hw =>
    have hclose : (Rest.tail (byte '{') (w ++ [byte '}'] ++ t)).skipBlanks.bytes = byte '}' :: t :=
      skipBlanks_of_append hw (by decide) (by simp [Rest.tail])
    rw [List.cons_append, skipValue, if_neg (by decide), if_neg (by decide), if_neg (by decide),
      if_neg (by decide), if_neg (by decide), if_neg (by decide), if_pos rfl]
    split
    next h => simp [h] at hclose
    next b u h =>
      obtain ⟨rfl, rfl⟩ : b = byte '}' ∧ u = t := by simpa using h.symm.trans hclose
      rw [if_pos rfl]
      exact ⟨_, rfl, rfl⟩
  | @full y _ h =>
    have hr : (Rest.tail (byte '{') (y ++ [byte '}'] ++ t)).bytes = y ++ byte '}' :: t := by
      simp [Rest.tail]
    obtain ⟨b, u, hopen, -, -, hb⟩ := h.opens_skipBlanks (fun x m _ hx => hx.opens) hr
    rw [List.cons_append, skipValue, if_neg (by decide), if_neg (by decide), if_neg (by decide),
      if_neg (by decide), if_neg (by decide), if_neg (by decide), if_pos rfl]
    split
    next h' => simp [h'] at hopen
    next c u' h' =>
      obtain ⟨rfl, rfl⟩ : c = b ∧ u' = u := by simpa using h'.symm.trans hopen
      rw [if_neg hb]
      exact skipMembers_complete h hn hp hr

theorem skipNumber_complete {x : Bytes} (hx : IsNumber x) : Passes ⟨.number, x⟩ := by
  intro t ht
  obtain ⟨b, u, rfl, hb⟩ := hx.exists_cons
  obtain ⟨literal, q, hq, hqt⟩ := readNumber_complete .invalidNumber hx
    (endsNumber_of_endsValue ht)
  have hkind : Kind.ofFirstByte? b = some .number := by
    rcases hb with rfl | hb
    · rfl
    · exact ofFirstByte?_of_isDigit hb
  have hne {c : UInt8} (hc : Kind.ofFirstByte? c ≠ some .number) : b ≠ c := by
    rintro rfl
    exact hc hkind
  have h : skipValue (b :: (u ++ t)) =
      (readNumber .invalidNumber (b :: (u ++ t))).map Prod.snd := by
    rw [skipValue, if_neg (hne (by decide)), if_neg (hne (by decide)), if_neg (hne (by decide)),
      if_neg (hne (by decide)), if_pos hb]
  exact ⟨q, h.trans (congrArg (Except.map Prod.snd) hq), hqt⟩

theorem skipValue_complete {n : Node} (h : n.Written Loose) : Passes n := by
  induction h with
  | null =>
    intro t _
    change Skips (skipValue (byte 'n' :: (Bytes.ofString "ull" ++ t))) t
    rw [skipValue, if_neg (by decide), if_neg (by decide), if_neg (by decide), if_pos rfl]
    exact skipWord_complete rfl
  | boolean hx =>
    intro t _
    rcases hx with rfl | rfl
    · change Skips (skipValue (byte 't' :: (Bytes.ofString "rue" ++ t))) t
      rw [skipValue, if_neg (by decide), if_pos rfl]
      exact skipWord_complete rfl
    · change Skips (skipValue (byte 'f' :: (Bytes.ofString "alse" ++ t))) t
      rw [skipValue, if_neg (by decide), if_neg (by decide), if_pos rfl]
      exact skipWord_complete rfl
  | number hx => exact skipNumber_complete hx
  | string hb =>
    intro t _
    obtain ⟨ps, hps⟩ := hb
    rw [quote_append, skipValue, if_pos rfl]
    exact closeString_complete hps rfl
  | array h hn ih => exact skipArray_complete h hn ih
  | object h hn ih => exact skipObject_complete h hn ih

def Sound (s : Bytes) : Prop :=
  ∀ q, skipValue s = .ok q → ∃ n : Node, n.Written Loose ∧ s = n.raw ++ q.bytes

theorem skipElements_sound {s : Bytes} {r q : Rest s}
    (hsound : ∀ t : Bytes, t.length ≤ r.bytes.length → Sound t) (h : skipElements r = .ok q) :
    ∃ y nodes, Listed Element y nodes ∧ (∀ n ∈ nodes, n.Written Loose) ∧
      r.bytes = y ++ byte ']' :: q.bytes := by
  induction hlen : r.bytes.length using Nat.strongRecOn generalizing r with
  | ind k ih =>
    unfold skipElements at h
    split at h
    · simp at h
    next e he =>
      obtain ⟨n, hn, hr⟩ := hsound _ (Nat.le_refl _) e he
      have hx : Element n.raw n := rfl
      dsimp only at h
      split at h
      · simp at h
      next b t hb =>
        split at h
        next hcomma =>
          subst hcomma
          have hlt := r.skipBlanks_next_lt e hb
          obtain ⟨y, nodes, hy, hnodes, hrest⟩ := ih _ (hlen ▸ hlt)
            (fun u hu => hsound u (Nat.le_trans hu (Nat.le_of_lt hlt))) h rfl
          obtain ⟨z, hz, hbytes⟩ := hy.more_of_rest (r := r.andThen e) hx hb hrest
          exact ⟨z, n :: nodes, hz, List.forall_mem_cons.2 ⟨hn, hnodes⟩, hr.trans hbytes⟩
        next =>
          split at h
          next hclose =>
            subst hclose
            obtain rfl : (r.andThen e).skipBlanks.next hb = q := Except.ok.inj h
            obtain ⟨z, hz, hbytes⟩ := Listed.last_of_rest (r := r.andThen e) hx hb
            exact ⟨z, [n], hz, List.forall_mem_singleton.2 hn, hr.trans hbytes⟩
          · simp at h

theorem skipMember_sound {s : Bytes} {name : Rest s} {q : Rest name.skipBlanks.bytes}
    (hname : skipName s = .ok name) (hq : skipValue name.skipBlanks.bytes = .ok q)
    (hsound : Sound name.skipBlanks.bytes) :
    ∃ x m, Member Loose x m ∧ m.2.Written Loose ∧ s = x ++ q.bytes := by
  obtain ⟨b, v, hb, hv, hs⟩ := skipName_sound hname
  obtain ⟨w, hw, hblanks⟩ := exists_blanks name
  obtain ⟨n, hn, hvalue⟩ := hsound q hq
  refine ⟨_, ((), n), .mk hb hv hw, hn, ?_⟩
  rw [hblanks, hvalue] at hs
  simp only [List.append_assoc, List.cons_append]
  exact hs

theorem skipMembers_sound {s : Bytes} {r q : Rest s}
    (hsound : ∀ t : Bytes, t.length < r.bytes.length → Sound t) (h : skipMembers r = .ok q) :
    ∃ y members, Listed (Member Loose) y members ∧ (∀ m ∈ members, m.2.Written Loose) ∧
      r.bytes = y ++ byte '}' :: q.bytes := by
  induction hlen : r.bytes.length using Nat.strongRecOn generalizing r with
  | ind k ih =>
    unfold skipMembers at h
    split at h
    · simp at h
    next name hname =>
      split at h
      · simp at h
      next e he =>
        obtain ⟨x, m, hx, hm, hr⟩ := skipMember_sound hname he (hsound _ name.skipBlanks.length_lt)
        dsimp only at h
        split at h
        · simp at h
        next b t hb =>
          split at h
          next hcomma =>
            subst hcomma
            have hlt := r.skipBlanks_next_lt _ hb
            obtain ⟨y, members, hy, hmembers, hrest⟩ := ih _ (hlen ▸ hlt)
              (fun u hu => hsound u (Nat.lt_trans hu hlt)) h rfl
            obtain ⟨z, hz, hbytes⟩ :=
              hy.more_of_rest (r := r.andThen (name.skipBlanks.andThen e)) hx hb hrest
            exact ⟨z, m :: members, hz, List.forall_mem_cons.2 ⟨hm, hmembers⟩, hr.trans hbytes⟩
          next =>
            split at h
            next hclose =>
              subst hclose
              obtain rfl : (r.andThen (name.skipBlanks.andThen e)).skipBlanks.next hb = q :=
                Except.ok.inj h
              obtain ⟨z, hz, hbytes⟩ :=
                Listed.last_of_rest (r := r.andThen (name.skipBlanks.andThen e)) hx hb
              exact ⟨z, [m], hz, List.forall_mem_singleton.2 hm, hr.trans hbytes⟩
            · simp at h

theorem skipArray_sound {t : Bytes} {q : Rest (byte '[' :: t)}
    (hsound : ∀ u : Bytes, u.length ≤ t.length → Sound u) (h : skipValue (byte '[' :: t) = .ok q) :
    ∃ n : Node, n.Written Loose ∧ byte '[' :: t = n.raw ++ q.bytes := by
  rw [skipValue, if_neg (by decide), if_neg (by decide), if_neg (by decide), if_neg (by decide),
    if_neg (by decide), if_pos rfl] at h
  obtain ⟨v, hv, (ht : t = v ++ (Rest.tail (byte '[') t).skipBlanks.bytes)⟩ :=
    exists_blanks (Rest.tail (byte '[') t)
  split at h
  · simp at h
  next c u hc =>
    split at h
    next hclose =>
      subst hclose
      obtain rfl : (Rest.tail (byte '[') t).skipBlanks.next hc = q := Except.ok.inj h
      refine ⟨_, .array (.empty hv) (by simp), ?_⟩
      rw [hc] at ht
      simpa [Rest.next_bytes] using ht
    next =>
      have hle := (Rest.tail (byte '[') t).skipBlanks_length_le
      obtain ⟨y, nodes, hy, hnodes, hr⟩ := skipElements_sound
        (fun u hu => hsound u (Nat.le_trans hu hle)) h
      refine ⟨_, .array (.full (hy.blanks_append hv)) hnodes, ?_⟩
      rw [hr] at ht
      simpa using ht

theorem skipObject_sound {t : Bytes} {q : Rest (byte '{' :: t)}
    (hsound : ∀ u : Bytes, u.length ≤ t.length → Sound u) (h : skipValue (byte '{' :: t) = .ok q) :
    ∃ n : Node, n.Written Loose ∧ byte '{' :: t = n.raw ++ q.bytes := by
  rw [skipValue, if_neg (by decide), if_neg (by decide), if_neg (by decide), if_neg (by decide),
    if_neg (by decide), if_neg (by decide), if_pos rfl] at h
  obtain ⟨v, hv, (ht : t = v ++ (Rest.tail (byte '{') t).skipBlanks.bytes)⟩ :=
    exists_blanks (Rest.tail (byte '{') t)
  split at h
  · simp at h
  next c u hc =>
    split at h
    next hclose =>
      subst hclose
      obtain rfl : (Rest.tail (byte '{') t).skipBlanks.next hc = q := Except.ok.inj h
      refine ⟨_, .object (.empty hv) (by simp), ?_⟩
      rw [hc] at ht
      simpa [Rest.next_bytes] using ht
    next =>
      have hle := (Rest.tail (byte '{') t).skipBlanks_length_le
      obtain ⟨y, members, hy, hmembers, hr⟩ := skipMembers_sound
        (fun u hu => hsound u (Nat.le_trans (Nat.le_of_lt hu) hle)) h
      refine ⟨_, .object (.full (hy.blanks_append hv)) hmembers, ?_⟩
      rw [hr] at ht
      simpa using ht

theorem skipValue_sound (s : Bytes) : Sound s := by
  induction hlen : s.length using Nat.strongRecOn generalizing s with
  | ind k ih =>
    intro q h
    cases s with
    | nil => simp [skipValue] at h
    | cons b t =>
      have hshorter : ∀ u : Bytes, u.length ≤ t.length → Sound u := fun u hu =>
        ih u.length (hlen ▸ Nat.lt_succ_of_le hu) u rfl
      have hcons := h
      rw [skipValue] at h
      split at h
      next hb =>
        subst hb
        obtain ⟨x, hx, ht⟩ := closeString_sound h
        exact ⟨_, .string (k := ()) hx, (quote_append x _).symm ▸ congrArg (byte '"' :: ·) ht⟩
      split at h
      next hb =>
        subst hb
        exact ⟨_, .boolean (.inl rfl), congrArg (byte 't' :: ·) (skipWord_sound h)⟩
      split at h
      next hb =>
        subst hb
        exact ⟨_, .boolean (.inr rfl), congrArg (byte 'f' :: ·) (skipWord_sound h)⟩
      split at h
      next hb =>
        subst hb
        exact ⟨_, .null, congrArg (byte 'n' :: ·) (skipWord_sound h)⟩
      split at h
      next =>
        cases hnumber : readNumber .invalidNumber (b :: t) with
        | error f => simp [hnumber, Except.map] at h
        | ok p =>
          obtain ⟨literal, q'⟩ := p
          simp only [hnumber, Except.map, Except.ok.injEq] at h
          obtain ⟨x, hx, hs⟩ := readNumber_sound hnumber
          exact ⟨_, .number hx, h ▸ hs⟩
      split at h
      next hb =>
        subst hb
        exact skipArray_sound hshorter hcons
      split at h
      next hb =>
        subst hb
        exact skipObject_sound hshorter hcons
      · simp at h

end DocMatch.Json
