import DocMatch.Proofs.Json.Skip

/-!
Readers against the layouts they read. A reader of items completes to a reader of lists and of
objects: where the items in brackets can be read one by one, all of them are read, in order. Main
statements: `readSpan_sound`, `readSpan_complete`, `readList_complete` and `readObject_complete`.
-/

namespace DocMatch.Json

variable {α β : Type} {Item : Bytes → α → Prop} {f : α → β} {bracket : Bracket} {read : Reader β}

/-- The bytes `x` are read as `b`, whatever ends the value. -/
def Completes (read : Reader β) (x : Bytes) (b : β) : Prop :=
  ∀ t, endsValue t = true → Reads (read (x ++ t)) b t

/-- The bytes before the items `y`: nothing before the first item, else a comma. -/
inductive Leads (y : Bytes) : Bool → Bytes → Prop where
  | first : Leads y true y
  | after {w : Bytes} : AllBlank w → Leads y false (w ++ byte ',' :: y)

def Bracket.Closes (bracket : Bracket) : Prop :=
  bracket.close = byte ']' ∨ bracket.close = byte '}'

theorem Bracket.closes_list : Bracket.list.Closes := .inl rfl

theorem Bracket.closes_object : Bracket.object.Closes := .inr rfl

theorem Bracket.Closes.isBlank (hb : bracket.Closes) : Bytes.isBlank bracket.close = false := by
  rcases hb with h | h <;> rw [h] <;> decide

theorem Bracket.Closes.endsValue (hb : bracket.Closes) (t : Bytes) :
    endsValue (bracket.close :: t) = true := by
  rcases hb with h | h <;> rw [h] <;> rfl

theorem Bracket.Closes.ne_comma (hb : bracket.Closes) : byte ',' ≠ bracket.close := by
  rcases hb with h | h <;> rw [h] <;> decide

theorem Opens.exists_cons {x : Bytes} (hx : Opens x) (hb : bracket.Closes) :
    ∃ b t, x = b :: t ∧ b ≠ bracket.close := by
  obtain ⟨b, t, rfl, -, hlist, hobject⟩ := hx
  rcases hb with h | h
  · exact ⟨b, t, rfl, h ▸ hlist⟩
  · exact ⟨b, t, rfl, h ▸ hobject⟩

theorem itemAfterComma_complete (hb : bracket.Closes) {x u : Bytes} {b : β} {s : Bytes}
    {r : Rest s} (hr : r.skipBlanks.bytes = x ++ u) (hx : Opens x)
    (hread : Reads (read (x ++ u)) b u) :
    ∃ q, itemAfterComma bracket read r.skipBlanks = .ok (.item b q) ∧ q.bytes = u := by
  rw [← hr] at hread
  obtain ⟨q, hq, hqu⟩ := hread
  obtain ⟨c, t, rfl, hc⟩ := hx.exists_cons hb
  refine ⟨r.skipBlanks.andThen q, ?_, hqu⟩
  have hhead : r.skipBlanks.bytes.head? = some c := by rw [hr]; rfl
  rw [itemAfterComma, hhead]
  dsimp only
  rw [if_neg hc, hq]
  rfl

theorem nextItem_complete (hb : bracket.Closes) {first : Bool} {v x u : Bytes} {b : β} {s : Bytes}
    {r : Rest s} (hr : Leads (v ++ (x ++ u)) first r.bytes) (hv : AllBlank v) (hx : Opens x)
    (hread : Reads (read (x ++ u)) b u) :
    ∃ q, nextItem bracket read first r.skipBlanks.bytes = .ok (.item b q) ∧ q.bytes = u := by
  generalize hz : r.bytes = z at hr
  cases hr with
  | first =>
    obtain ⟨q, hq, hqu⟩ := hread
    obtain ⟨c, t, rfl, hc⟩ := hx.exists_cons hb
    rw [(hx.append u).skipBlanks hv hz, List.cons_append, nextItem, if_neg hc, if_pos rfl]
    exact ⟨q, congrArg _ hq, hqu⟩
  | after hw =>
    rw [skipBlanks_of_append hw (by decide) hz, nextItem, if_neg hb.ne_comma,
      if_neg (by decide), if_pos rfl]
    have hafter : (Rest.tail (byte ',') (v ++ (x ++ u))).skipBlanks.bytes = x ++ u :=
      (hx.append u).skipBlanks hv rfl
    exact itemAfterComma_complete hb hafter hx hread

theorem nextItem_close (read : Reader β) (hb : bracket.Closes) (first : Bool) {w t : Bytes}
    (hw : AllBlank w) {s : Bytes} {r : Rest s} (hr : r.bytes = w ++ bracket.close :: t) :
    ∃ q, nextItem bracket read first r.skipBlanks.bytes = .ok (.close q) ∧ q.bytes = t := by
  rw [skipBlanks_of_append hw hb.isBlank hr, nextItem, if_pos rfl]
  exact ⟨_, rfl, rfl⟩

theorem items_close (read : Reader β) (hb : bracket.Closes) (first : Bool) {w t : Bytes}
    (hw : AllBlank w) {s : Bytes} {r : Rest s} (hr : r.bytes = w ++ bracket.close :: t) :
    Reads (items bracket read first r) [] t := by
  obtain ⟨q, hq, hqt⟩ := nextItem_close read hb first hw hr
  rw [items, hq]
  exact ⟨_, rfl, hqt⟩

theorem items_complete (hb : bracket.Closes) {y : Bytes} {as : List α} (h : Listed Item y as)
    (hread : ∀ x a, a ∈ as → Item x a → Opens x ∧ Completes read x (f a)) {first : Bool} {t : Bytes}
    {s : Bytes} {r : Rest s} (hr : Leads (y ++ bracket.close :: t) first r.bytes) :
    Reads (items bracket read first r) (as.map f) t := by
  -- by induction on the layout, for both ways in which a list may go on
  induction h generalizing first r with
  | last hv hx hw =>
    obtain ⟨hopen, hread⟩ := hread _ _ (List.mem_cons_self ..) hx
    simp only [List.append_assoc] at hr
    obtain ⟨q, hq, hqt⟩ := nextItem_complete hb hr hv hopen
      (hread _ (endsValue_blanks hw (hb.endsValue t)))
    obtain ⟨e, he, het⟩ := items_close read (r := r.skipBlanks.andThen q) hb false hw hqt
    rw [items, hq]
    dsimp only
    rw [he]
    exact ⟨e, rfl, het⟩
  | more hv hx hw _ ih =>
    obtain ⟨hopen, hitem⟩ := hread _ _ (List.mem_cons_self ..) hx
    simp only [List.append_assoc, List.cons_append] at hr
    obtain ⟨q, hq, hqt⟩ := nextItem_complete hb hr hv hopen (hitem _ (endsValue_blanks hw rfl))
    have hleads : Leads _ false (r.skipBlanks.andThen q).bytes := hqt ▸ Leads.after hw
    obtain ⟨e, he, het⟩ := ih (fun x a ha => hread x a (List.mem_cons_of_mem _ ha)) hleads
    rw [items, hq]
    dsimp only
    rw [he]
    exact ⟨e, rfl, het⟩

theorem items_enclosed_complete (read : Reader β) (hb : bracket.Closes) {opening : UInt8}
    {y : Bytes} {as : List α} (h : Enclosed opening bracket.close Item y as)
    (hread : ∀ x a, a ∈ as → Item x a → Opens x ∧ Completes read x (f a)) (t : Bytes) :
    ∃ z, y ++ t = opening :: z ∧
      Reads (items bracket read true (.tail opening z)) (as.map f) t := by
  cases h with
  | @empty w hw =>
    refine ⟨w ++ [bracket.close] ++ t, rfl, items_close read hb true hw ?_⟩
    rw [List.append_assoc]
    rfl
  | @full y _ h =>
    refine ⟨y ++ bracket.close :: t, by simp, items_complete hb h hread .first⟩

theorem readList_complete (read : Reader β) {y : Bytes} {as : List α}
    (h : Enclosed (byte '[') (byte ']') Item y as)
    (hread : ∀ x a, a ∈ as → Item x a → Opens x ∧ Completes read x (f a)) (t : Bytes) :
    Reads (readList read (y ++ t)) (as.map f) t := by
  obtain ⟨z, hz, hitems⟩ := items_enclosed_complete read Bracket.closes_list h hread t
  rw [hz, readList, if_pos rfl]
  exact hitems

theorem readValue_complete {v w x t : Bytes} {b : β} (hv : AllBlank v) (hw : AllBlank w)
    (hx : Opens x) (hread : Reads (read (x ++ t)) b t) {s : Bytes} {r : Rest s}
    (hr : r.bytes = v ++ byte ':' :: (w ++ (x ++ t))) : Reads (readValue read r) b t := by
  obtain ⟨colon, hcolon, hrest⟩ := skipColon_complete hv hr
  rw [← (hx.append t).skipBlanks hw hrest] at hread
  obtain ⟨q, hq, hqt⟩ := hread
  rw [readValue, hcolon]
  dsimp only
  rw [hq]
  exact ⟨_, rfl, hqt⟩

theorem readName_complete {b t : Bytes} {k : String} (hb : Spells b k) :
    Reads (readName (quote b ++ t)) k t := by
  rw [quote_append, readName, if_pos rfl]
  exact readString_complete hb rfl

theorem readMember_complete {g : Node → β} {x : Bytes} {m : String × Node}
    (hx : Member Spells x m) (hopen : Opens m.2.raw) (hread : Completes read m.2.raw (g m.2)) :
    Completes (readMember read) x (m.1, g m.2) := by
  intro t ht
  cases hx with
  | @mk b v w k n hb hv hw =>
    have hassoc : quote b ++ (v ++ byte ':' :: (w ++ n.raw)) ++ t =
        quote b ++ (v ++ byte ':' :: (w ++ (n.raw ++ t))) := by simp
    rw [hassoc]
    obtain ⟨name, hname, hrest⟩ := readName_complete hb
    obtain ⟨q, hq, hqt⟩ := readValue_complete hv hw hopen (hread t ht) hrest
    rw [readMember, hname]
    dsimp only
    rw [hq]
    exact ⟨q, rfl, hqt⟩

theorem readObject_complete (read : Reader β) {g : Node → β} {y : Bytes}
    {members : List (String × Node)}
    (h : Enclosed (byte '{') (byte '}') (Member Spells) y members)
    (hread : ∀ m ∈ members, Opens m.2.raw ∧ Completes read m.2.raw (g m.2)) (t : Bytes) :
    Reads (readObject read (y ++ t)) (members.map fun m => (m.1, g m.2)) t := by
  obtain ⟨z, hz, hitems⟩ := items_enclosed_complete (readMember read) Bracket.closes_object h
    (fun x m hm hx => ⟨hx.opens, readMember_complete hx (hread m hm).1 (hread m hm).2⟩) t
  rw [hz, readObject, if_pos rfl]
  exact hitems

theorem readIgnored_complete {n : Node} (h : n.Written Loose) : Completes readIgnored n.raw () := by
  intro t ht
  obtain ⟨q, hq, hqt⟩ := skipValue_complete h t ht
  rw [readIgnored, hq]
  exact ⟨q, rfl, hqt⟩

theorem readSpan_complete {n : Node} (h : n.Written Loose) (hn : Utf8.isValid n.raw = true) :
    Completes readSpan n.raw n.raw := by
  intro t ht
  obtain ⟨q, hq, hqt⟩ := skipValue_complete h t ht
  have hspan : q.span = n.raw := by
    have := q.span_append_bytes
    rw [hqt] at this
    exact List.append_cancel_right this
  rw [readSpan, hq]
  dsimp only
  rw [hspan, if_pos hn]
  exact ⟨q, rfl, hqt⟩

theorem readSpan_sound {s raw : Bytes} {r : Rest s} (h : readSpan s = .ok (raw, r)) :
    ∃ n : Node, n.Written Loose ∧ Utf8.isValid n.raw = true ∧ n.raw = raw ∧ s = raw ++ r.bytes := by
  unfold readSpan at h
  split at h
  · simp at h
  next q hq =>
    split at h
    next hvalid =>
      obtain ⟨rfl, rfl⟩ : q.span = raw ∧ q = r := by simpa using h
      obtain ⟨n, hn, hs⟩ := skipValue_sound s q hq
      have hspan : q.span = n.raw := List.append_cancel_right (q.span_append_bytes.trans hs)
      exact ⟨n, hn, hspan ▸ hvalid, hspan.symm, hspan ▸ hs⟩
    · simp at h

end DocMatch.Json
