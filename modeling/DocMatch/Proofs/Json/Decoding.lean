import DocMatch.Proofs.Json.Reading

/-!
Readers of text and of objects of text against their grammar. What has been read is what was
written: a literal that denotes the text, and for an object its members in order. Main statements:
`readString_sound`, `items_sound` and `readDocument_texts_iff`.
-/

namespace DocMatch.Json

variable {β : Type} {Item : Bytes → β → Prop} {bracket : Bracket} {read : Reader β}

def SoundFor (Item : Bytes → β → Prop) (read : Reader β) : Prop :=
  ∀ {s b q}, read s = .ok (b, q) → ∃ x, Item x b ∧ s = x ++ q.bytes

theorem takeEscapeByte_sound {s : Bytes} {b : UInt8} {r q : Rest s}
    (h : takeEscapeByte b r = .ok q) : r.bytes = b :: q.bytes := by
  unfold takeEscapeByte at h
  split at h
  · simp at h
  next c t hr =>
    split at h
    next hc =>
      subst hc
      obtain rfl : r.next hr = q := Except.ok.inj h
      exact hr
    · simp at h

theorem readLowSurrogate_sound {s : Bytes} {r q : Rest s} {m : Nat}
    (h : readLowSurrogate r = .ok (m, q)) :
    ∃ x, IsPiece (.unit m) x ∧ isLowSurrogate m = true ∧ r.bytes = x ++ q.bytes := by
  obtain ⟨r₁, h₁, h⟩ := bind_eq_ok_iff.1 h
  obtain ⟨r₂, h₂, h⟩ := bind_eq_ok_iff.1 h
  obtain ⟨⟨low, r₃⟩, h₃, h⟩ := bind_eq_ok_iff.1 h
  dsimp only at h
  split at h
  next hlow =>
    obtain ⟨rfl, rfl⟩ : low = m ∧ r₃ = q := by simpa [pure, Except.pure] using h
    obtain ⟨a, b, c, d, ht, hn⟩ := readUnit_sound h₃
    refine ⟨_, .unit hn, hlow, ?_⟩
    rw [takeEscapeByte_sound h₁, takeEscapeByte_sound h₂, ht]
    rfl
  · simp [throw, throwThe, MonadExceptOf.throw] at h

theorem readScalar_sound {n : Nat} {s : Bytes} {r q : Rest s} {c : Char}
    (h : readScalar n r = .ok (c, q)) :
    (isLowSurrogate n = false ∧ isHighSurrogate n = false ∧ c = Char.ofNat n ∧ q = r) ∨
      ∃ m x, isHighSurrogate n = true ∧ isLowSurrogate m = true ∧ IsPiece (.unit m) x ∧
        c = pairedChar n m ∧ r.bytes = x ++ q.bytes := by
  unfold readScalar at h
  split at h
  · simp at h
  next hlow =>
    split at h
    next hhigh =>
      obtain ⟨⟨m, e⟩, hm, h⟩ := bind_eq_ok_iff.1 h
      obtain ⟨rfl, rfl⟩ : pairedChar n m = c ∧ e = q := by
        simpa [pure, Except.pure, pairedChar] using h
      obtain ⟨x, hx, hlow', hr⟩ := readLowSurrogate_sound hm
      exact .inr ⟨m, x, hhigh, hlow', hx, rfl, hr⟩
    next hhigh =>
      obtain ⟨rfl, rfl⟩ : Char.ofNat n = c ∧ r = q := by simpa using h
      exact .inl ⟨Bool.not_eq_true _ ▸ hlow, Bool.not_eq_true _ ▸ hhigh, rfl, rfl⟩

/-- The bytes after an opening quotation mark are those of a literal with the pieces `ps`, which
denotes `out`, and of what stands after the literal. -/
def Decoded (s : Bytes) (out t : Bytes) : Prop :=
  ∃ b ps, Body ps b ∧ Denotes ps out ∧ s = b ++ byte '"' :: t

theorem decodeBytes_sound {s read bytes : Bytes} {r q : Rest s}
    (h : decodeBytes read r = .ok (bytes, q)) :
    ∃ out, bytes = read.reverse ++ out ∧ Decoded r.bytes out q.bytes := by
  fun_induction decodeBytes read r with
  | case1 => simp at h
  | case2 read r q' hq =>
    obtain ⟨rfl, rfl⟩ : read.reverse = bytes ∧ r.andThen q' = q := by simpa using h
    rcases nextPiece_sound hq with h | ⟨-, h⟩ | ⟨x, hx, -⟩
    · cases h
    · exact ⟨[], by simp, [], [], .nil, .nil, h⟩
    · cases hx
  | case3 => simp at h
  | case4 read r b q' hq ih =>
    obtain ⟨out, rfl, y, ps, hy, hd, ht⟩ := ih h
    rcases nextPiece_sound hq with h | ⟨h, -⟩ | ⟨x, hx, hs⟩
    · cases h
    · cases h
    · refine ⟨b :: out, by simp, x ++ y, _, .cons hx hy, .plain b hd, ?_⟩
      rw [hs, ← Rest.andThen_bytes, ht, List.append_assoc]
  | case5 => simp at h
  | case6 read r n q' hq c e hscalar ih =>
    obtain ⟨out, rfl, y, ps, hy, hd, ht⟩ := ih h
    rcases nextPiece_sound hq with h | ⟨h, -⟩ | ⟨x, hx, hs⟩
    · cases h
    · cases h
    · refine ⟨String.utf8EncodeChar c ++ out, by simp, ?_⟩
      rcases readScalar_sound hscalar with ⟨hlow, hhigh, hc, rfl⟩ | ⟨m, z, hhigh, hlow, hz, hc, hr⟩
      · rw [hc]
        refine ⟨x ++ y, _, .cons hx hy, .unit hlow hhigh hd, ?_⟩
        rw [hs, ← Rest.andThen_bytes, ht, List.append_assoc]
      · rw [hc]
        refine ⟨x ++ (z ++ y), _, .cons hx (.cons hz hy), .pair hhigh hlow hd, ?_⟩
        rw [hs, hr, ← Rest.andThen_bytes, ht]
        simp

theorem readString_sound {s : Bytes} {r q : Rest s} {text : String}
    (h : readString r = .ok (text, q)) :
    ∃ b, Spells b text ∧ r.bytes = b ++ byte '"' :: q.bytes := by
  obtain ⟨⟨bytes, e⟩, hdecoded, h⟩ := bind_eq_ok_iff.1 h
  dsimp only at h
  split at h
  next text' htext =>
    obtain ⟨rfl, rfl⟩ : text' = text ∧ e = q := by simpa [pure, Except.pure] using h
    obtain ⟨out, hout, b, ps, hb, hd, hr⟩ := decodeBytes_sound hdecoded
    obtain rfl : bytes = out := hout
    have hvalid : Utf8.isValid b = true := by
      have := hd.isValid hb []
      rw [List.nil_append, List.nil_append, ← Utf8.isSome_text?, htext] at this
      exact this.symm
    exact ⟨b, ⟨hvalid, ps, bytes, hb, hd, htext⟩, hr⟩
  · simp [throw, throwThe, MonadExceptOf.throw] at h

inductive Text : Bytes → String → Prop where
  | mk {b : Bytes} {text : String} : Spells b text → Text (quote b) text

theorem exists_text {t : Bytes} {text : String} {q : Rest (byte '"' :: t)}
    (h : readString (.tail (byte '"') t) = .ok (text, q)) :
    ∃ x, Text x text ∧ byte '"' :: t = x ++ q.bytes := by
  obtain ⟨b, hb, ht⟩ := readString_sound h
  refine ⟨_, .mk hb, ?_⟩
  rw [quote_append, ← ht]
  rfl

theorem readName_sound : SoundFor Text readName := by
  intro s text q h
  cases s with
  | nil => simp [readName] at h
  | cons c t =>
    rw [readName] at h
    split at h
    next hc =>
      subst hc
      exact exists_text h
    · simp at h

theorem readText_sound : SoundFor Text readText := by
  intro s text q h
  cases s with
  | nil => simp [readText] at h
  | cons c t =>
    rw [readText] at h
    split at h
    next hc =>
      subst hc
      exact exists_text h
    · simp at h

inductive MemberOf (Item : Bytes → β → Prop) : Bytes → String × β → Prop where
  | mk {x v w y : Bytes} {k : String} {b : β} :
      Text x k → AllBlank v → AllBlank w → Item y b →
      MemberOf Item (x ++ (v ++ byte ':' :: (w ++ y))) (k, b)

theorem readMember_sound (hread : SoundFor Item read) :
    SoundFor (MemberOf Item) (readMember read) := by
  intro s m q h
  unfold readMember at h
  split at h
  · simp at h
  next name e hname =>
    obtain ⟨⟨b, f⟩, hvalue, h⟩ := map_eq_ok_iff.1 h
    obtain ⟨rfl, rfl⟩ : (name, b) = m ∧ f = q := by simpa using h
    obtain ⟨x, hx, hs⟩ := readName_sound hname
    unfold readValue at hvalue
    split at hvalue
    · simp at hvalue
    next colon hcolon =>
      split at hvalue
      · simp at hvalue
      next b' e' hb =>
        obtain ⟨rfl, rfl⟩ : b' = b ∧ colon.skipBlanks.andThen e' = f := by simpa using hvalue
        obtain ⟨v, hv, he⟩ := skipColon_sound hcolon
        obtain ⟨w, hw, hblanks⟩ := exists_blanks colon
        obtain ⟨y, hy, hrest⟩ := hread hb
        refine ⟨_, .mk hx hv hw hy, hs.trans ?_⟩
        rw [he, hblanks, hrest, Rest.andThen_bytes]
        simp

theorem Leads.eq_of_first {y z : Bytes} (h : Leads y true z) : z = y := by
  cases h
  rfl

theorem Leads.blanks_append {y z w v : Bytes} {first : Bool} (hv : AllBlank v) (hw : AllBlank w)
    (h : Leads (w ++ y) first z) : ∃ u, AllBlank u ∧ Leads (u ++ y) first (v ++ z) := by
  cases h with
  | first =>
    refine ⟨v ++ w, hv.append hw, ?_⟩
    rw [← List.append_assoc]
    exact .first
  | after hw' =>
    refine ⟨w, hw, ?_⟩
    rw [← List.append_assoc]
    exact .after (hv.append hw')

theorem nextItem_close_sound {first : Bool} {s : Bytes} {q : Rest s}
    (h : nextItem bracket read first s = .ok (.close q)) : s = bracket.close :: q.bytes := by
  cases s with
  | nil => simp [nextItem] at h
  | cons b t =>
    rw [nextItem] at h
    split at h
    next hb =>
      obtain rfl : Rest.tail b t = q := by simpa using h
      rw [hb, Rest.tail_bytes]
    · split at h
      · obtain ⟨p, -, h⟩ := map_eq_ok_iff.1 h
        cases h
      · split at h
        · unfold itemAfterComma at h
          split at h
          · simp at h
          · split at h
            · simp at h
            · obtain ⟨p, -, h⟩ := map_eq_ok_iff.1 h
              cases h
        · simp at h

theorem nextItem_sound (hread : SoundFor Item read) {first : Bool} {s : Bytes} {b : β} {q : Rest s}
    (h : nextItem bracket read first s = .ok (.item b q)) :
    ∃ v x, AllBlank v ∧ Item x b ∧ Leads (v ++ (x ++ q.bytes)) first s := by
  cases s with
  | nil => simp [nextItem] at h
  | cons c t =>
    rw [nextItem] at h
    split at h
    · simp at h
    · split at h
      next hfirst =>
        obtain ⟨⟨b', e⟩, hb, h⟩ := map_eq_ok_iff.1 h
        obtain ⟨rfl, rfl⟩ : b' = b ∧ e = q := by simpa using h
        obtain ⟨x, hx, hs⟩ := hread hb
        refine ⟨[], x, allBlank_nil, hx, ?_⟩
        rw [hfirst, List.nil_append, ← hs]
        exact .first
      next hfirst =>
        split at h
        next hcomma =>
          subst hcomma
          unfold itemAfterComma at h
          split at h
          · simp at h
          · split at h
            · simp at h
            · obtain ⟨⟨b', e⟩, hb, h⟩ := map_eq_ok_iff.1 h
              obtain ⟨rfl, rfl⟩ : b' = b ∧ _ = q := by simpa using h
              obtain ⟨v, hv, (ht : t = _)⟩ := exists_blanks (Rest.tail (byte ',') t)
              obtain ⟨x, hx, hs⟩ := hread hb
              refine ⟨v, x, hv, hx, ?_⟩
              rw [Bool.not_eq_true] at hfirst
              rw [hfirst, Rest.andThen_bytes, ← hs, ← ht]
              exact @Leads.after t [] allBlank_nil
        · simp at h

/-- Either no item is left before the bracket, or the items are laid out as a list. -/
theorem items_sound (hread : SoundFor Item read) {first : Bool} {s : Bytes} {r e : Rest s}
    {bs : List β} (h : items bracket read first r = .ok (bs, e)) :
    (bs = [] ∧ ∃ w, AllBlank w ∧ r.bytes = w ++ bracket.close :: e.bytes) ∨
      ∃ y, Listed Item y bs ∧ Leads (y ++ bracket.close :: e.bytes) first r.bytes := by
  fun_induction items bracket read first r generalizing bs e with
  | case1 => simp at h
  | case2 first r q hq =>
    obtain ⟨rfl, rfl⟩ : [] = bs ∧ r.skipBlanks.andThen q = e := by simpa using h
    obtain ⟨w, hw, hr⟩ := exists_blanks r
    exact .inl ⟨rfl, w, hw, by rw [hr, nextItem_close_sound hq, Rest.andThen_bytes]⟩
  | case3 => simp at h
  | case4 first r b q hq more f hmore ih =>
    obtain ⟨rfl, rfl⟩ : b :: more = bs ∧ f = e := by simpa using h
    obtain ⟨v, x, hv, hx, hleads⟩ := nextItem_sound hread hq
    obtain ⟨w, hw, hr⟩ := exists_blanks r
    obtain ⟨u, hu, hleads⟩ := hleads.blanks_append hw hv
    rw [← hr] at hleads
    rcases ih hmore with ⟨rfl, w', hw', hrest⟩ | ⟨y, hy, hrest⟩
    · refine .inr ⟨_, .last hu hx hw', ?_⟩
      rw [Rest.andThen_bytes] at hrest
      rw [hrest] at hleads
      simpa using hleads
    · rw [Rest.andThen_bytes] at hrest
      generalize hq' : q.bytes = z at hrest hleads
      cases hrest with
      | after hw' =>
        refine .inr ⟨_, .more hu hx hw' hy, ?_⟩
        simpa using hleads

theorem readObject_sound (hread : SoundFor Item read) :
    SoundFor (Enclosed (byte '{') (byte '}') (MemberOf Item)) (readObject read) := by
  intro s members q h
  cases s with
  | nil => simp [readObject] at h
  | cons c t =>
    rw [readObject] at h
    split at h
    next hc =>
      subst hc
      rcases items_sound (readMember_sound hread) h with ⟨rfl, w, hw, ht⟩ | ⟨y, hy, ht⟩
      · refine ⟨_, .empty hw, (congrArg (byte '{' :: ·) ht).trans ?_⟩
        simp [Bracket.object]
      · refine ⟨_, .full hy, (congrArg (byte '{' :: ·) ht.eq_of_first).trans ?_⟩
        simp [Bracket.object]
    · simp at h

def DocumentOf (Item : Bytes → β → Prop) (content : Bytes) (b : β) : Prop :=
  ∃ v x w, AllBlank v ∧ AllBlank w ∧ Item x b ∧ content = v ++ (x ++ w)

def IsTextObject : Bytes → List (String × String) → Prop :=
  DocumentOf (Enclosed (byte '{') (byte '}') (MemberOf Text))

theorem readDocument_sound (hread : SoundFor Item read) {content : Bytes} {b : β}
    (h : readDocument read content = .ok b) : DocumentOf Item content b := by
  unfold readDocument at h
  split at h
  · simp at h
  next b' r hb =>
    split at h
    next hempty =>
      obtain rfl : b' = b := Except.ok.inj h
      obtain ⟨x, hx, hs⟩ := hread hb
      obtain ⟨w, hw, hr⟩ := exists_blanks r
      rw [List.isEmpty_iff.1 hempty, List.append_nil] at hr
      refine ⟨_, x, w, allBlank_takeWhile content, hw, hx, ?_⟩
      rw [← hr, ← hs, List.takeWhile_append_dropWhile]
    · simp at h

theorem readText_complete {x : Bytes} {text : String} (h : Text x text) :
    Completes readText x text := by
  intro t _
  cases h with
  | mk hb =>
    rw [quote_append, readText, if_pos rfl]
    exact readString_complete hb rfl

theorem Text.opens {x : Bytes} {text : String} (h : Text x text) : Opens x := by
  cases h with
  | mk _ => exact ⟨byte '"', _, rfl, by decide, by decide, by decide⟩

theorem MemberOf.opens {x : Bytes} {m : String × β} (h : MemberOf Item x m) : Opens x := by
  cases h with
  | mk hx _ _ _ => exact hx.opens.append _

theorem readMember_completes (hitem : ∀ y b, Item y b → Opens y ∧ Completes read y b) {x : Bytes}
    {m : String × β} (h : MemberOf Item x m) : Completes (readMember read) x m := by
  intro t ht
  cases h with
  | @mk x v w y k b hx hv hw hy =>
    cases hx with
    | @mk c _ hc =>
      have hassoc : quote c ++ (v ++ byte ':' :: (w ++ y)) ++ t =
          quote c ++ (v ++ byte ':' :: (w ++ (y ++ t))) := by simp
      obtain ⟨hopens, hcompletes⟩ := hitem y b hy
      obtain ⟨name, hname, hrest⟩ := readName_complete hc
      obtain ⟨q, hq, hqt⟩ := readValue_complete hv hw hopens (hcompletes t ht) hrest
      rw [hassoc, readMember, hname]
      dsimp only
      rw [hq]
      exact ⟨q, rfl, hqt⟩

theorem readDocument_complete {content : Bytes} {b : β} (h : DocumentOf Item content b)
    (hitem : ∀ x, Item x b → Opens x ∧ Completes read x b) : readDocument read content = .ok b := by
  obtain ⟨v, x, w, hv, hw, hx, rfl⟩ := h
  obtain ⟨⟨c, t, rfl, hc, -⟩, hcompletes⟩ := hitem x hx
  have hblank : ((v ++ (c :: t ++ w)).dropWhile Bytes.isBlank) = c :: t ++ w := by
    rw [dropWhile_blanks hv, List.cons_append, List.dropWhile_cons_of_neg (by simp [hc])]
  have hend : endsValue (w ++ []) = true := endsValue_blanks hw rfl
  rw [List.append_nil] at hend
  have hread := hcompletes w hend
  rw [← hblank] at hread
  obtain ⟨r, hr, hrest⟩ := hread
  have hempty : r.skipBlanks.bytes = [] := by
    have hdrop : r.skipBlanks.bytes = w.dropWhile Bytes.isBlank :=
      congrArg (List.dropWhile Bytes.isBlank) hrest
    have hblanks := dropWhile_blanks hw []
    rw [List.append_nil] at hblanks
    rw [hdrop, hblanks, List.dropWhile_nil]
  rw [readDocument, hr]
  dsimp only
  rw [hempty]
  rfl

/-- What a reader of objects reads off the front of an object, and that something stands there. -/
theorem readObject_texts {x : Bytes} {pairs : List (String × String)}
    (h : Enclosed (byte '{') (byte '}') (MemberOf Text) x pairs) :
    Opens x ∧ Completes (readObject readText) x pairs := by
  have hmember : ∀ y m, m ∈ pairs → MemberOf Text y m →
      Opens y ∧ Completes (readMember readText) y (id m) := fun y m _ hy =>
    ⟨hy.opens, readMember_completes (fun z text hz => ⟨hz.opens, readText_complete hz⟩) hy⟩
  have henclosed := items_enclosed_complete (readMember readText) Bracket.closes_object h hmember
  constructor
  · obtain ⟨z, hz, -⟩ := henclosed []
    exact ⟨byte '{', z, by simpa using hz, by decide, by decide, by decide⟩
  · intro t _
    obtain ⟨z, hz, hitems⟩ := henclosed t
    rw [hz, readObject, if_pos rfl]
    simpa using hitems

theorem readDocument_texts_iff {content : Bytes} {pairs : List (String × String)} :
    readDocument (readObject readText) content = .ok pairs ↔ IsTextObject content pairs :=
  ⟨readDocument_sound (readObject_sound readText_sound),
    fun h => readDocument_complete h fun _ hx => readObject_texts hx⟩

end DocMatch.Json
