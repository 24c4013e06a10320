import DocMatch.Proofs.Document

/-!
Documents that differ in formatting alone. Blanks between tokens, the order of members and the way
a key or a string is spelled are left open, but a string that is an element of an array and a
number keep their bytes. What is read from values that are alike is alike again. Main statements:
`Alike.exists_elements`, `Alike.exists_fields` and `Alike.exists_withoutField`.
-/

namespace DocMatch

open Json Document

inductive Spelling where
  | free
  | exact

/-- Values that show the same tree, the names in an object being distinct. -/
inductive Alike : Spelling → Node → Node → Prop where
  | scalar {s : Spelling} {n : Node} : n.IsSpelled → n.isPrimitive = true → Alike s n n
  | string {b b' : Bytes} {text : String} :
      Spells b text → Spells b' text → Alike .free ⟨.string, quote b⟩ ⟨.string, quote b'⟩
  | array {s : Spelling} {y y' : Bytes} {pairs : List (Node × Node)} :
      Enclosed (byte '[') (byte ']') Element y (pairs.map Prod.fst) →
      Enclosed (byte '[') (byte ']') Element y' (pairs.map Prod.snd) →
      (∀ p ∈ pairs, Alike .exact p.1 p.2) → Alike s ⟨.array, y⟩ ⟨.array, y'⟩
  | object {s : Spelling} {y y' : Bytes} {members members' : List Field}
      {pairs : List (String × Node × Node)} :
      Enclosed (byte '{') (byte '}') (Member Spells) y members →
      Enclosed (byte '{') (byte '}') (Member Spells) y' members' →
      members.Perm (pairs.map fun p => (p.1, p.2.1)) →
      members'.Perm (pairs.map fun p => (p.1, p.2.2)) →
      (pairs.map Prod.fst).Nodup → (∀ p ∈ pairs, Alike .free p.2.1 p.2.2) →
      Alike s ⟨.object, y⟩ ⟨.object, y'⟩

/-- Fields of the same names whose values are alike. -/
def AlikeFields (fs fs' : Fields) : Prop :=
  ∀ key, Option.Rel (Alike .free) (fs.get? key) (fs'.get? key)

namespace Alike

variable {s : Spelling} {n n' : Node}

theorem kind_eq (h : Alike s n n') : n.kind = n'.kind := by
  cases h <;> rfl

theorem isSpelled (h : Alike s n n') : n.IsSpelled ∧ n'.IsSpelled := by
  induction h with
  | scalar hn _ => exact ⟨hn, hn⟩
  | string hb hb' => exact ⟨.string hb, .string hb'⟩
  | array h h' _ ih =>
    refine ⟨.array h ?_, .array h' ?_⟩
    · exact List.forall_mem_map.2 fun p hp => (ih p hp).1
    · exact List.forall_mem_map.2 fun p hp => (ih p hp).2
  | object h h' hm hm' _ _ ih =>
    refine ⟨.object h fun m hmem => ?_, .object h' fun m hmem => ?_⟩
    · obtain ⟨p, hp, rfl⟩ := List.mem_map.1 (hm.mem_iff.1 hmem)
      exact (ih p hp).1
    · obtain ⟨p, hp, rfl⟩ := List.mem_map.1 (hm'.mem_iff.1 hmem)
      exact (ih p hp).2

theorem eq_of_exact (h : Alike .exact n n') (hn : n.isPrimitive = true) : n = n' := by
  cases h with
  | scalar => rfl
  | array => cases hn
  | object => cases hn

theorem eq_of_ne_string (h : Alike s n n') (hn : n.isPrimitive = true) (hkind : n.kind ≠ .string) :
    n = n' := by
  cases h with
  | scalar => rfl
  | string => exact absurd rfl hkind
  | array => cases hn
  | object => cases hn

theorem stringValue_eq (h : Alike s n n') : n.stringValue = n'.stringValue := by
  cases h with
  | scalar => rfl
  | string hb hb' => rw [Node.stringValue_complete hb, Node.stringValue_complete hb']
  | array => rfl
  | object => rfl

theorem keyText_eq (h : Alike s n n') (hn : n.isPrimitive = true) : n.keyText = n'.keyText := by
  unfold Node.keyText
  by_cases hkind : n.kind = .string
  · rw [if_pos hkind, if_pos (h.kind_eq ▸ hkind), h.stringValue_eq]
  · rw [h.eq_of_ne_string hn hkind]

theorem exists_elements (h : Alike s n n') (hkind : n.kind = .array) :
    ∃ nodes nodes', elements n.raw = .ok nodes ∧ elements n'.raw = .ok nodes' ∧
      List.Forall₂ (Alike .exact) nodes nodes' := by
  have ⟨hn, hn'⟩ := h.isSpelled
  cases h with
  | scalar _ hprimitive => simp [Node.isPrimitive, hkind, Kind.isPrimitive] at hprimitive
  | @array _ y y' pairs h h' hpairs =>
    have hvalue : ∀ p ∈ pairs, p.1.IsValue ∧ p.2.IsValue := fun p hp =>
      ⟨(hpairs p hp).isSpelled.1.isValue, (hpairs p hp).isSpelled.2.isValue⟩
    refine ⟨_, _, elements_complete h ?_, elements_complete h' ?_, ?_⟩
    · exact List.forall_mem_map.2 fun p hp => (hvalue p hp).1
    · exact List.forall_mem_map.2 fun p hp => (hvalue p hp).2
    · rw [List.forall₂_map_left_iff, List.forall₂_map_right_iff]
      exact List.forall₂_same.2 hpairs
  | _ => cases hkind

end Alike

theorem get?_ofList_of_perm {members : List Field} {pairs : List (String × Node × Node)}
    {g : Node × Node → Node} (hm : members.Perm (pairs.map fun p => (p.1, g p.2)))
    (hnodup : (pairs.map Prod.fst).Nodup) {key : String} {n : Node} :
    (Fields.ofList members).get? key = some n ↔ ∃ p ∈ pairs, p.1 = key ∧ g p.2 = n := by
  have hkeys : (members.map Prod.fst).Nodup := by
    rw [(hm.map Prod.fst).nodup_iff, List.map_map]
    exact hnodup
  rw [Fields.get?_ofList_eq_some_iff hkeys, hm.mem_iff, List.mem_map]
  simp only [Prod.mk.injEq]

/-- Members that are alike in pairs make fields that are alike, in whatever order they stand. -/
theorem alikeFields_ofList {members members' : List Field} {pairs : List (String × Node × Node)}
    (hm : members.Perm (pairs.map fun p => (p.1, p.2.1)))
    (hm' : members'.Perm (pairs.map fun p => (p.1, p.2.2))) (hnodup : (pairs.map Prod.fst).Nodup)
    (h : ∀ p ∈ pairs, Alike .free p.2.1 p.2.2) :
    AlikeFields (Fields.ofList members) (Fields.ofList members') := by
  intro key
  by_cases hkey : ∃ p ∈ pairs, p.1 = key
  · obtain ⟨p, hp, hpkey⟩ := hkey
    rw [(get?_ofList_of_perm (g := Prod.fst) hm hnodup).2 ⟨p, hp, hpkey, rfl⟩,
      (get?_ofList_of_perm (g := Prod.snd) hm' hnodup).2 ⟨p, hp, hpkey, rfl⟩]
    exact .some (h p hp)
  · have hnone {members : List Field} {g : Node × Node → Node}
        (hm : members.Perm (pairs.map fun p => (p.1, g p.2))) :
        (Fields.ofList members).get? key = none := by
      refine Option.eq_none_iff_forall_ne_some.2 fun n hn => hkey ?_
      obtain ⟨p, hp, hpkey, -⟩ := (get?_ofList_of_perm hm hnodup).1 hn
      exact ⟨p, hp, hpkey⟩
    rw [hnone (g := Prod.fst) hm, hnone (g := Prod.snd) hm']
    exact .none

theorem rel_cases {α β : Type} {R : α → β → Prop} {o : Option α} {o' : Option β}
    (h : Option.Rel R o o') :
    o = none ∧ o' = none ∨ ∃ a b, o = some a ∧ o' = some b ∧ R a b := by
  cases h with
  | none => exact .inl ⟨rfl, rfl⟩
  | some hab => exact .inr ⟨_, _, rfl, rfl, hab⟩

theorem exists_pairs {α β : Type} {R : α → β → Prop} {as : List α} {bs : List β}
    (h : List.Forall₂ R as bs) :
    ∃ pairs : List (α × β), as = pairs.map Prod.fst ∧ bs = pairs.map Prod.snd ∧
      ∀ p ∈ pairs, R p.1 p.2 := by
  induction h with
  | nil => exact ⟨[], rfl, rfl, by simp⟩
  | @cons a b as bs hab _ ih =>
    obtain ⟨pairs, rfl, rfl, hpairs⟩ := ih
    exact ⟨(a, b) :: pairs, rfl, rfl, List.forall_mem_cons.2 ⟨hab, hpairs⟩⟩

namespace AlikeFields

variable {fs fs' : Fields}

theorem erase (h : AlikeFields fs fs') (key : String) :
    AlikeFields (fs.erase key) (fs'.erase key) := by
  intro k
  rw [Fields.get?_erase, Fields.get?_erase]
  split
  · exact .none
  · exact h k

theorem ofFields {s : Spelling} (h : AlikeFields fs fs') :
    Alike s ⟨.object, Document.ofFields fs⟩ ⟨.object, Document.ofFields fs'⟩ := by
  obtain ⟨pairs, hfs, hfs', hpairs⟩ := exists_pairs (Fields.forall₂_toList h)
  have hleft : fs.toList = (pairs.map fun p => (p.1.1, p.1.2, p.2.2)).map fun q =>
      (q.1, q.2.1) := by
    rw [hfs, List.map_map]
    rfl
  have hright : fs'.toList = (pairs.map fun p => (p.1.1, p.1.2, p.2.2)).map fun q =>
      (q.1, q.2.2) := by
    rw [hfs', List.map_map]
    refine List.map_congr_left fun p hp => ?_
    exact Prod.ext (hpairs p hp).1.symm rfl
  have hnodup := fs.nodup_toList
  rw [hleft, List.map_map] at hnodup
  refine .object (enclosed_members fs) (enclosed_members fs') (.of_eq hleft) (.of_eq hright)
    hnodup (List.forall_mem_map.2 fun p hp => (hpairs p hp).2)

end AlikeFields

namespace Alike

variable {s : Spelling} {n n' : Node}

theorem exists_fields (h : Alike s n n') (hkind : n.kind = .object) :
    ∃ fs fs', fields n.raw = .ok fs ∧ fields n'.raw = .ok fs' ∧ AlikeFields fs fs' := by
  have ⟨hn, hn'⟩ := h.isSpelled
  cases h with
  | scalar _ hprimitive => simp [Node.isPrimitive, hkind, Kind.isPrimitive] at hprimitive
  | object h h' hm hm' hnodup hpairs =>
    refine ⟨_, _, fields_complete h fun m hmem => ?_, fields_complete h' fun m hmem => ?_,
      alikeFields_ofList hm hm' hnodup hpairs⟩
    · obtain ⟨p, hp, rfl⟩ := List.mem_map.1 (hm.mem_iff.1 hmem)
      exact (hpairs p hp).isSpelled.1.isValue
    · obtain ⟨p, hp, rfl⟩ := List.mem_map.1 (hm'.mem_iff.1 hmem)
      exact (hpairs p hp).isSpelled.2.isValue
  | _ => cases hkind

theorem exists_withoutField (h : Alike s n n') (hkind : n.kind = .object) (key : String) :
    ∃ raw raw', withoutField n.raw key = .ok raw ∧ withoutField n'.raw key = .ok raw' ∧
      Alike s ⟨.object, raw⟩ ⟨.object, raw'⟩ := by
  obtain ⟨fs, fs', hfs, hfs', hfields⟩ := h.exists_fields hkind
  refine ⟨ofFields (fs.erase key), ofFields (fs'.erase key), ?_, ?_, (hfields.erase key).ofFields⟩
  · rw [withoutField, hfs]
    rfl
  · rw [withoutField, hfs']
    rfl

end Alike

/-- Documents that show the same tree. -/
def Document.Reformatted (data data' : Bytes) : Prop :=
  ∃ v w v' w' n n', AllBlank v ∧ AllBlank w ∧ AllBlank v' ∧ AllBlank w' ∧
    data = v ++ (n.raw ++ w) ∧ data' = v' ++ (n'.raw ++ w') ∧ Alike .free n n'

theorem Document.Reformatted.exists_root {data data' : Bytes} (h : Reformatted data data') :
    ∃ n n', root data = .ok n ∧ root data' = .ok n' ∧ Alike .free n n' := by
  obtain ⟨v, w, v', w', n, n', hv, hw, hv', hw', rfl, rfl, hn⟩ := h
  exact ⟨n, n', root_complete hn.isSpelled.1.isValue hv hw,
    root_complete hn.isSpelled.2.isValue hv' hw', hn⟩

section

variable {s : Spelling} {n n' m m' : Node} {k k' l l' w : Bytes} {name other : String}

theorem member_mk (hk : Spells k name) :
    Member Spells (quote k ++ byte ':' :: n.raw) (name, n) :=
  @Member.mk _ _ k [] [] name n hk allBlank_nil allBlank_nil

theorem Alike.element (hw : AllBlank w) (h : Alike .exact n n') :
    Alike s ⟨.array, byte '[' :: (n.raw ++ [byte ']'])⟩
      ⟨.array, byte '[' :: ((n'.raw ++ w) ++ [byte ']'])⟩ := by
  have hleft : Enclosed (byte '[') (byte ']') Element
      (byte '[' :: (([] ++ (n.raw ++ [])) ++ [byte ']'])) [n] :=
    .full (.last allBlank_nil rfl allBlank_nil)
  have hright : Enclosed (byte '[') (byte ']') Element
      (byte '[' :: (([] ++ (n'.raw ++ w)) ++ [byte ']'])) [n'] :=
    .full (.last allBlank_nil rfl hw)
  rw [List.nil_append, List.append_nil] at hleft
  rw [List.nil_append] at hright
  exact @Alike.array _ _ _ [(n, n')] hleft hright (List.forall_mem_singleton.2 h)

theorem Alike.member (hk : Spells k name) (h : Alike .free n n') :
    Alike s ⟨.object, byte '{' :: ((quote k ++ byte ':' :: n.raw) ++ [byte '}'])⟩
      ⟨.object, byte '{' :: ((quote k ++ byte ':' :: n'.raw) ++ [byte '}'])⟩ := by
  have henclosed (n : Node) : Enclosed (byte '{') (byte '}') (Member Spells)
      (byte '{' :: (([] ++ ((quote k ++ byte ':' :: n.raw) ++ [])) ++ [byte '}'])) [(name, n)] :=
    .full (.last allBlank_nil (member_mk hk) allBlank_nil)
  simp only [List.nil_append, List.append_nil] at henclosed
  exact @Alike.object _ _ _ _ _ [(name, n, n')] (henclosed n) (henclosed n') (.refl _) (.refl _)
    (List.nodup_singleton _) (List.forall_mem_singleton.2 h)

theorem Alike.swapped (hk : Spells k name) (hk' : Spells k' name) (hl : Spells l other)
    (hl' : Spells l' other) (hne : name ≠ other) (hn : Alike .free n n') (hm : Alike .free m m')
    (hw : AllBlank w) :
    Alike s
      ⟨.object, byte '{' :: (((quote k ++ byte ':' :: n.raw) ++
        (byte ',' :: (quote l ++ byte ':' :: m.raw))) ++ [byte '}'])⟩
      ⟨.object, byte '{' :: ((w ++ ((quote l' ++ byte ':' :: m'.raw) ++
        (byte ',' :: (quote k' ++ byte ':' :: n'.raw)))) ++ [byte '}'])⟩ := by
  have henclosed {k l v : Bytes} {name other : String} {n m : Node} (hk : Spells k name)
      (hl : Spells l other) (hv : AllBlank v) : Enclosed (byte '{') (byte '}') (Member Spells)
        (byte '{' :: ((v ++ ((quote k ++ byte ':' :: n.raw) ++ ([] ++ byte ',' ::
          ([] ++ ((quote l ++ byte ':' :: m.raw) ++ []))))) ++ [byte '}']))
        [(name, n), (other, m)] :=
    .full (.more hv (member_mk hk) allBlank_nil (.last allBlank_nil (member_mk hl) allBlank_nil))
  simp only [List.nil_append, List.append_nil] at henclosed
  exact @Alike.object _ _ _ _ _ [(name, n, n'), (other, m, m')]
    (henclosed hk hl allBlank_nil) (henclosed hl' hk' hw) (.refl _) (.swap ..)
    (by simpa using hne) (List.forall_mem_cons.2 ⟨hn, List.forall_mem_singleton.2 hm⟩)

theorem Alike.reformatted (h : Alike .free n n') : Reformatted n.raw n'.raw :=
  ⟨[], [], [], [], n, n', allBlank_nil, allBlank_nil, allBlank_nil, allBlank_nil,
    (List.append_nil _).symm, (List.append_nil _).symm, h⟩

end

end DocMatch
