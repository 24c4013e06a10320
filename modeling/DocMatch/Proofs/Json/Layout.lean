import DocMatch.Json.Reader
import DocMatch.Proofs.Json.Literal
import Mathlib.Data.List.Forall2

/-!
The layout of compound values: items between brackets, parted by commas, with blanks around each.
`Listed` and `Enclosed` are the layouts of a list of items, each item written as a relation `Item`
says; both an array's elements and an object's members are laid out so. Main statements:
`Splits.listed` and `Splits.good_listed`, a property of bytes that can be checked part by part
holds of a layout if and only if it holds of the items in it.
-/

namespace DocMatch.Json

variable {α β : Type} {Item Item' : Bytes → α → Prop}

def AllBlank (w : Bytes) : Prop := ∀ b ∈ w, Bytes.isBlank b = true

theorem allBlank_nil : AllBlank [] := by simp [AllBlank]

theorem forall_mem_of_forall₂ {P : β → Prop} {as : List α} {bs : List β}
    (h : List.Forall₂ (fun _ b => P b) as bs) : ∀ b ∈ bs, P b := by
  induction h with
  | nil => simp
  | cons hb _ ih => exact List.forall_mem_cons.2 ⟨hb, ih⟩

theorem AllBlank.append {v w : Bytes} (hv : AllBlank v) (hw : AllBlank w) : AllBlank (v ++ w) := by
  intro b hb
  rcases List.mem_append.1 hb with hb | hb
  · exact hv b hb
  · exact hw b hb

theorem dropWhile_blanks {w : Bytes} (hw : AllBlank w) (t : Bytes) :
    (w ++ t).dropWhile Bytes.isBlank = t.dropWhile Bytes.isBlank :=
  List.dropWhile_append_of_pos hw

theorem allBlank_takeWhile (t : Bytes) : AllBlank (t.takeWhile Bytes.isBlank) :=
  List.all_eq_true.1 (List.all_takeWhile ..)

theorem exists_blanks {s : Bytes} (r : Rest s) :
    ∃ w, AllBlank w ∧ r.bytes = w ++ r.skipBlanks.bytes :=
  ⟨_, allBlank_takeWhile r.bytes, (List.takeWhile_append_dropWhile ..).symm⟩

/-- Items with commas between them and blanks around each. -/
inductive Listed (Item : Bytes → α → Prop) : Bytes → List α → Prop where
  | last {v x w : Bytes} {a : α} :
      AllBlank v → Item x a → AllBlank w → Listed Item (v ++ (x ++ w)) [a]
  | more {v x w y : Bytes} {a : α} {as : List α} :
      AllBlank v → Item x a → AllBlank w → Listed Item y as →
      Listed Item (v ++ (x ++ (w ++ byte ',' :: y))) (a :: as)

theorem Listed.blanks_append {v y : Bytes} {as : List α}
    (hv : AllBlank v) (h : Listed Item y as) : Listed Item (v ++ y) as := by
  cases h with
  | last hv' hx hw =>
    rw [← List.append_assoc]
    exact .last (hv.append hv') hx hw
  | more hv' hx hw hrest =>
    rw [← List.append_assoc]
    exact .more (hv.append hv') hx hw hrest

theorem Listed.last_of_rest {x t s : Bytes} {a : α} {b : UInt8} {r : Rest s} (hx : Item x a)
    (hb : r.skipBlanks.bytes = b :: t) : ∃ y, Listed Item y [a] ∧ x ++ r.bytes = y ++ b :: t := by
  obtain ⟨w, hw, hr⟩ := exists_blanks r
  refine ⟨_, .last allBlank_nil hx hw, ?_⟩
  rw [hr, hb]
  simp

theorem Listed.more_of_rest {x y t tail s : Bytes} {a : α} {as : List α} {r : Rest s}
    (hx : Item x a) (hcomma : r.skipBlanks.bytes = byte ',' :: t) (h : Listed Item y as)
    (hy : (r.skipBlanks.next hcomma).skipBlanks.bytes = y ++ tail) :
    ∃ z, Listed Item z (a :: as) ∧ x ++ r.bytes = z ++ tail := by
  obtain ⟨w, hw, hr⟩ := exists_blanks r
  obtain ⟨v, hv, (ht : t = _)⟩ := exists_blanks (r.skipBlanks.next hcomma)
  refine ⟨_, .more allBlank_nil hx hw (h.blanks_append hv), ?_⟩
  rw [hr, hcomma, ht, hy]
  simp

inductive Enclosed (opening closing : UInt8) (Item : Bytes → α → Prop) : Bytes → List α → Prop where
  | empty {w : Bytes} : AllBlank w → Enclosed opening closing Item (opening :: (w ++ [closing])) []
  | full {y : Bytes} {as : List α} :
      Listed Item y as → Enclosed opening closing Item (opening :: (y ++ [closing])) as

theorem Listed.exists_item {y : Bytes} {as : List α} (h : Listed Item y as) :
    ∀ a ∈ as, ∃ x, Item x a := by
  induction h with
  | last _ hx _ => exact List.forall_mem_singleton.2 ⟨_, hx⟩
  | more _ hx _ _ ih => exact List.forall_mem_cons.2 ⟨⟨_, hx⟩, ih⟩

theorem Enclosed.exists_item {opening closing : UInt8} {y : Bytes} {as : List α}
    (h : Enclosed opening closing Item y as) : ∀ a ∈ as, ∃ x, Item x a := by
  cases h with
  | empty _ => simp
  | full hy => exact hy.exists_item

theorem Listed.exists_forall₂ {Other : Bytes → β → Prop} {P : α → β → Prop} {y : Bytes}
    {as : List α} (h : Listed Item y as)
    (hitem : ∀ x a, a ∈ as → Item x a → ∃ b, Other x b ∧ P a b) :
    ∃ bs, Listed Other y bs ∧ List.Forall₂ P as bs := by
  induction h with
  | last hv hx hw =>
    obtain ⟨b, hb, hp⟩ := hitem _ _ (List.mem_cons_self ..) hx
    exact ⟨[b], .last hv hb hw, .cons hp .nil⟩
  | more hv hx hw _ ih =>
    obtain ⟨b, hb, hp⟩ := hitem _ _ (List.mem_cons_self ..) hx
    obtain ⟨bs, hbs, hps⟩ := ih fun x a ha => hitem x a (List.mem_cons_of_mem _ ha)
    exact ⟨b :: bs, .more hv hb hw hbs, .cons hp hps⟩

theorem Enclosed.exists_forall₂ {opening closing : UInt8} {Other : Bytes → β → Prop}
    {P : α → β → Prop} {y : Bytes} {as : List α} (h : Enclosed opening closing Item y as)
    (hitem : ∀ x a, a ∈ as → Item x a → ∃ b, Other x b ∧ P a b) :
    ∃ bs, Enclosed opening closing Other y bs ∧ List.Forall₂ P as bs := by
  cases h with
  | empty hw => exact ⟨[], .empty hw, .nil⟩
  | full hy =>
    obtain ⟨bs, hbs, hps⟩ := hy.exists_forall₂ hitem
    exact ⟨bs, .full hbs, hps⟩

theorem skipBlanks_of_append {v t : Bytes} {b : UInt8} (hv : AllBlank v)
    (hb : Bytes.isBlank b = false) {s : Bytes} {r : Rest s} (hr : r.bytes = v ++ b :: t) :
    r.skipBlanks.bytes = b :: t := by
  have h : r.skipBlanks.bytes = (v ++ b :: t).dropWhile Bytes.isBlank := hr ▸ rfl
  rw [h, dropWhile_blanks hv, List.dropWhile_cons_of_neg (by simp [hb])]

/-- Something stands here, neither a blank nor a closing bracket. -/
def Opens (x : Bytes) : Prop :=
  ∃ b t, x = b :: t ∧ Bytes.isBlank b = false ∧ b ≠ byte ']' ∧ b ≠ byte '}'

theorem Opens.append {x : Bytes} (h : Opens x) (t : Bytes) : Opens (x ++ t) := by
  obtain ⟨b, u, rfl, hb⟩ := h
  exact ⟨b, u ++ t, rfl, hb⟩

theorem Opens.skipBlanks {v x : Bytes} (h : Opens x) (hv : AllBlank v) {s : Bytes} {r : Rest s}
    (hr : r.bytes = v ++ x) : r.skipBlanks.bytes = x := by
  obtain ⟨b, u, rfl, hb, -⟩ := h
  exact skipBlanks_of_append hv hb hr

theorem Listed.opens_skipBlanks {y t : Bytes} {as : List α} (h : Listed Item y as)
    (hitem : ∀ x a, a ∈ as → Item x a → Opens x) {s : Bytes} {r : Rest s}
    (hr : r.bytes = y ++ t) : Opens r.skipBlanks.bytes := by
  cases h with
  | last hv hx hw =>
    have hx' := hitem _ _ (List.mem_cons_self ..) hx
    rw [List.append_assoc, List.append_assoc] at hr
    rw [(hx'.append _).skipBlanks hv hr]
    exact hx'.append _
  | more hv hx hw _ =>
    have hx' := hitem _ _ (List.mem_cons_self ..) hx
    rw [List.append_assoc, List.append_assoc] at hr
    rw [(hx'.append _).skipBlanks hv hr]
    exact hx'.append _

def IsPlain (b : UInt8) : Prop := b < 0x80 ∧ b ≠ byte '\\'

instance (b : UInt8) : Decidable (IsPlain b) := inferInstanceAs (Decidable (_ ∧ _))

/-- Nothing that goes on with what stands before: `t` is empty or begins with a plain byte. -/
def StartsPlain (t : Bytes) : Prop := ∀ b ∈ t.head?, IsPlain b

theorem startsPlain_cons {b : UInt8} (hb : IsPlain b) (t : Bytes) : StartsPlain (b :: t) := by
  intro c hc
  obtain rfl : b = c := by simpa using hc
  exact hb

theorem startsPlain_append {s t : Bytes} (hs : StartsPlain s) (ht : StartsPlain t) :
    StartsPlain (s ++ t) := by
  cases s with
  | nil => exact ht
  | cons b s => exact hs

theorem startsPlain_of_forall {s : Bytes} (hs : ∀ b ∈ s, IsPlain b) : StartsPlain s := by
  cases s with
  | nil => simp [StartsPlain]
  | cons b s => exact startsPlain_cons (hs b (List.mem_cons_self ..)) s

theorem isPlain_of_isBlank {b : UInt8} (h : Bytes.isBlank b = true) : IsPlain b := by
  simp only [Bytes.isBlank, Bool.or_eq_true, beq_iff_eq] at h
  rcases h with ((rfl | rfl) | rfl) | rfl <;> decide

theorem AllBlank.isPlain {w : Bytes} (hw : AllBlank w) : ∀ b ∈ w, IsPlain b :=
  fun b hb => isPlain_of_isBlank (hw b hb)

/-- A property `Good` of bytes that can be checked part by part, where the front part is `Whole`,
so that nothing begun in it goes on, and the other part starts plainly. -/
structure Splits (Good Whole : Bytes → Prop) : Prop where
  nil : Whole [] ∧ Good []
  whole_cons {b : UInt8} {t : Bytes} : IsPlain b → Whole t → Whole (b :: t)
  good_cons {b : UInt8} {t : Bytes} : IsPlain b → (Good (b :: t) ↔ Good t)
  whole_append {s t : Bytes} : Whole s → Whole t → Whole (s ++ t)
  good_append {s t : Bytes} : Whole s → StartsPlain t → (Good (s ++ t) ↔ Good s ∧ Good t)

namespace Splits

variable {Good Whole : Bytes → Prop} (hs : Splits Good Whole)

include hs

theorem plain {s : Bytes} (h : ∀ b ∈ s, IsPlain b) : Whole s ∧ Good s := by
  induction s with
  | nil => exact hs.nil
  | cons b s ih =>
    have hb := h b (List.mem_cons_self ..)
    have hrest := ih fun c hc => h c (List.mem_cons_of_mem _ hc)
    exact ⟨hs.whole_cons hb hrest.1, (hs.good_cons hb).2 hrest.2⟩

theorem blanks {w : Bytes} (hw : AllBlank w) : Whole w ∧ Good w := hs.plain hw.isPlain

theorem good_plain_append {s t : Bytes} (h : ∀ b ∈ s, IsPlain b) : Good (s ++ t) ↔ Good t := by
  induction s with
  | nil => exact Iff.rfl
  | cons b s ih =>
    rw [List.cons_append, hs.good_cons (h b (List.mem_cons_self ..))]
    exact ih fun c hc => h c (List.mem_cons_of_mem _ hc)

theorem good_append_plain {s t : Bytes} (hw : Whole s) (h : ∀ b ∈ t, IsPlain b) :
    Good (s ++ t) ↔ Good s :=
  (hs.good_append hw (startsPlain_of_forall h)).trans (and_iff_left (hs.plain h).2)

theorem whole_listed {y : Bytes} {as : List α} (h : Listed Item y as)
    (hitem : ∀ x a, a ∈ as → Item x a → Whole x) : Whole y := by
  induction h with
  | last hv hx hw =>
    have hx' := hitem _ _ (List.mem_cons_self ..) hx
    exact hs.whole_append (hs.blanks hv).1 (hs.whole_append hx' (hs.blanks hw).1)
  | more hv hx hw _ ih =>
    have hx' := hitem _ _ (List.mem_cons_self ..) hx
    have hrest := ih fun x a ha => hitem x a (List.mem_cons_of_mem _ ha)
    exact hs.whole_append (hs.blanks hv).1 (hs.whole_append hx'
      (hs.whole_append (hs.blanks hw).1 (hs.whole_cons (by decide) hrest)))

theorem good_last {v x w : Bytes} (hv : AllBlank v) (hx : Whole x) (hw : AllBlank w) :
    Good (v ++ (x ++ w)) ↔ Good x := by
  rw [hs.good_plain_append hv.isPlain, hs.good_append_plain hx hw.isPlain]

theorem good_more {v x w y : Bytes} (hv : AllBlank v) (hx : Whole x) (hw : AllBlank w) :
    Good (v ++ (x ++ (w ++ byte ',' :: y))) ↔ Good x ∧ Good y := by
  have hcomma : StartsPlain (byte ',' :: y) := startsPlain_cons (by decide) y
  have hw' := startsPlain_append (startsPlain_of_forall hw.isPlain) hcomma
  rw [hs.good_plain_append hv.isPlain, hs.good_append hx hw', hs.good_plain_append hw.isPlain,
    hs.good_cons (by decide)]

theorem good_between {opening closing : UInt8} (ho : IsPlain opening) (hc : IsPlain closing)
    {y : Bytes} (hy : Whole y) : Good (opening :: (y ++ [closing])) ↔ Good y := by
  rw [hs.good_cons ho]
  exact hs.good_append_plain hy (by simpa using hc)

theorem listed {y : Bytes} {as : List α} (h : Listed Item y as)
    (hitem : ∀ x a, a ∈ as → Item x a → Whole x) (hy : Good y) :
    Listed (fun x a => Item x a ∧ Good x) y as := by
  induction h with
  | last hv hx hw =>
    have hx' := hitem _ _ (List.mem_cons_self ..) hx
    exact .last hv ⟨hx, (hs.good_last hv hx' hw).1 hy⟩ hw
  | more hv hx hw _ ih =>
    have hx' := hitem _ _ (List.mem_cons_self ..) hx
    obtain ⟨hgood, hrest⟩ := (hs.good_more hv hx' hw).1 hy
    exact .more hv ⟨hx, hgood⟩ hw (ih (fun x a ha => hitem x a (List.mem_cons_of_mem _ ha)) hrest)

theorem good_listed {y : Bytes} {as : List α} (h : Listed Item y as)
    (hitem : ∀ x a, a ∈ as → Item x a → Whole x ∧ Good x) : Good y := by
  induction h with
  | last hv hx hw =>
    obtain ⟨hx', hgood⟩ := hitem _ _ (List.mem_cons_self ..) hx
    exact (hs.good_last hv hx' hw).2 hgood
  | more hv hx hw _ ih =>
    obtain ⟨hx', hgood⟩ := hitem _ _ (List.mem_cons_self ..) hx
    exact (hs.good_more hv hx' hw).2
      ⟨hgood, ih fun x a ha => hitem x a (List.mem_cons_of_mem _ ha)⟩

theorem whole_enclosed {opening closing : UInt8} (ho : IsPlain opening) (hc : IsPlain closing)
    {y : Bytes} {as : List α} (h : Enclosed opening closing Item y as)
    (hitem : ∀ x a, a ∈ as → Item x a → Whole x) : Whole y := by
  have hend : Whole [closing] := hs.whole_cons hc hs.nil.1
  cases h with
  | empty hw => exact hs.whole_cons ho (hs.whole_append (hs.blanks hw).1 hend)
  | full hy => exact hs.whole_cons ho (hs.whole_append (hs.whole_listed hy hitem) hend)

theorem enclosed {opening closing : UInt8} (ho : IsPlain opening) (hc : IsPlain closing)
    {y : Bytes} {as : List α} (h : Enclosed opening closing Item y as)
    (hitem : ∀ x a, a ∈ as → Item x a → Whole x) (hy : Good y) :
    Enclosed opening closing (fun x a => Item x a ∧ Good x) y as := by
  cases h with
  | empty hw => exact .empty hw
  | full h =>
    have hgood := (hs.good_between ho hc (hs.whole_listed h hitem)).1 hy
    exact .full (hs.listed h hitem hgood)

theorem good_enclosed {opening closing : UInt8} (ho : IsPlain opening) (hc : IsPlain closing)
    {y : Bytes} {as : List α} (h : Enclosed opening closing Item y as)
    (hitem : ∀ x a, a ∈ as → Item x a → Whole x ∧ Good x) : Good y := by
  cases h with
  | empty hw => exact (hs.good_between ho hc (hs.blanks hw).1).2 (hs.blanks hw).2
  | full h =>
    have hwhole := hs.whole_listed h fun x a ha hx => (hitem x a ha hx).1
    exact (hs.good_between ho hc hwhole).2 (hs.good_listed h hitem)

end Splits

end DocMatch.Json
