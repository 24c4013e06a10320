import DocMatch.Json.Reader
import DocMatch.Proofs.Sequence

/-!
Readers compared. A reader follows another if it reads whatever the other reads and stops where the
other stops, and readers of objects follow one another if the readers of their values do. Main
statement: `Follows.readObject`, with `readSpan_follows`, by which an object whose values can be
taken out is an object whose values can be passed over.
-/

namespace DocMatch.Json

variable {β γ : Type} {bracket : Bracket} {read : Reader β} {read' : Reader γ}

inductive SameRest {s : Bytes} : Item s γ → Item s β → Prop where
  | close (r : Rest s) : SameRest (.close r) (.close r)
  | item (c : γ) (b : β) (r : Rest s) : SameRest (.item c r) (.item b r)

/-- Where `first` reads something `second` does, too, and leaves the same rest. -/
def Follows (first : Reader γ) (second : Reader β) : Prop :=
  ∀ s c r, first s = .ok (c, r) → ∃ b, second s = .ok (b, r)

namespace Follows

variable (h : Follows read' read)

include h

theorem map_item {s t : Bytes} (rest : Rest t → Rest s) {x : Item s γ}
    (hx : (read' t).map (fun (c, q) => .item c (rest q)) = .ok x) :
    ∃ y, (read t).map (fun (b, q) => Item.item b (rest q)) = .ok y ∧ SameRest x y := by
  obtain ⟨⟨c, q⟩, hread, rfl⟩ := map_eq_ok_iff.1 hx
  obtain ⟨b, hb⟩ := h _ _ _ hread
  exact ⟨_, map_eq_ok_iff.2 ⟨_, hb, rfl⟩, .item c b _⟩

theorem itemAfterComma {s : Bytes} {r : Rest s} {x : Item s γ}
    (hx : itemAfterComma bracket read' r = .ok x) :
    ∃ y, Json.itemAfterComma bracket read r = .ok y ∧ SameRest x y := by
  unfold Json.itemAfterComma at hx ⊢
  split at hx
  · cases hx
  split at hx
  · cases hx
  next hclose =>
    rw [if_neg hclose]
    exact h.map_item _ hx

theorem nextItem {first : Bool} {s : Bytes} {x : Item s γ}
    (hx : nextItem bracket read' first s = .ok x) :
    ∃ y, Json.nextItem bracket read first s = .ok y ∧ SameRest x y := by
  cases s with
  | nil => cases hx
  | cons b t =>
    rw [Json.nextItem] at hx ⊢
    split at hx
    next hclose =>
      obtain rfl := Except.ok.inj hx
      exact ⟨_, if_pos hclose, .close _⟩
    next hclose =>
      rw [if_neg hclose]
      split at hx
      next hfirst =>
        rw [if_pos hfirst]
        exact h.map_item id hx
      next hfirst =>
        rw [if_neg hfirst]
        split at hx
        next hcomma =>
          rw [if_pos hcomma]
          exact h.itemAfterComma hx
        · cases hx

theorem items {first : Bool} {s : Bytes} {r e : Rest s} {cs : List γ}
    (hitems : items bracket read' first r = .ok (cs, e)) :
    ∃ bs, Json.items bracket read first r = .ok (bs, e) := by
  fun_induction Json.items bracket read' first r generalizing cs e with
  | case1 => cases hitems
  | case2 first r q hq =>
    obtain ⟨y, hy, hsame⟩ := h.nextItem hq
    cases hsame
    obtain ⟨rfl, rfl⟩ : [] = cs ∧ _ = e := by simpa using hitems
    exact ⟨[], by rw [Json.items, hy]⟩
  | case3 => cases hitems
  | case4 first r c q hq more e' hmore ih =>
    obtain ⟨y, hy, hsame⟩ := h.nextItem hq
    cases hsame with
    | item c b q =>
      obtain ⟨rfl, rfl⟩ : c :: more = cs ∧ e' = e := by simpa using hitems
      obtain ⟨bs, hbs⟩ := ih hmore
      exact ⟨b :: bs, by rw [Json.items, hy]; dsimp only; rw [hbs]⟩

theorem readMember : Follows (readMember read') (readMember read) := by
  intro s m r hm
  unfold Json.readMember at hm ⊢
  split at hm
  · cases hm
  next name q hname =>
    obtain ⟨⟨c, e⟩, hvalue, hm⟩ := map_eq_ok_iff.1 hm
    obtain ⟨rfl, rfl⟩ : (name, c) = m ∧ e = r := by simpa using hm
    unfold Json.readValue at hvalue ⊢
    split at hvalue
    · cases hvalue
    next colon hcolon =>
      split at hvalue
      · cases hvalue
      next c' e' hread =>
        obtain ⟨rfl, rfl⟩ : c' = c ∧ _ = e := by simpa using hvalue
        obtain ⟨b, hb⟩ := h _ _ _ hread
        exact ⟨(name, b), by rw [hb]; rfl⟩

theorem readObject : Follows (readObject read') (readObject read) := by
  intro s members r hmembers
  cases s with
  | nil => cases hmembers
  | cons b t =>
    rw [Json.readObject] at hmembers ⊢
    split at hmembers
    next hopen =>
      rw [if_pos hopen]
      exact h.readMember.items hmembers
    · cases hmembers

theorem readDocument {document : Bytes} {c : γ} (hc : readDocument read' document = .ok c) :
    ∃ b, Json.readDocument read document = .ok b := by
  unfold Json.readDocument at hc ⊢
  split at hc
  · cases hc
  next c' r hread =>
    obtain ⟨b, hb⟩ := h _ _ _ hread
    split at hc
    next hend => exact ⟨b, by rw [hb]; exact if_pos hend⟩
    · cases hc

end Follows

theorem readSpan_follows : Follows readSpan readIgnored := by
  intro s raw r hraw
  unfold readSpan at hraw
  split at hraw
  · cases hraw
  next q hq =>
    split at hraw
    · obtain ⟨-, rfl⟩ : _ ∧ q = r := by simpa using hraw
      exact ⟨(), by rw [readIgnored, hq]; rfl⟩
    · cases hraw

end DocMatch.Json
