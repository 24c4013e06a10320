import Mathlib
import DocMatch.Proofs.Compare.Step

/-!
Expected texts that demand that nothing be there, or that something be. Texts, arrays and null have a
size, which either demand looks at, so they satisfy exactly one of the two; a missing field satisfies
the first. Of numbers, booleans and objects neither may be demanded. Main statement:
`emptiness_complementary`.
-/

namespace DocMatch

namespace Node

def Demands (n : Node) (demand : Emptiness) : Prop :=
  ∃ text, n.stringValue = .ok text ∧ Expression.parse text = .ok (some (.emptiness demand))

inductive Empty : Node → Prop where
  | text {n : Node} : n.stringValue = .ok "" → Empty n
  | array {n : Node} : n.kind = .array → Document.elements n.raw = .ok [] → Empty n
  | null {n : Node} : n.kind = .null → Empty n

/-- The length that a demand on the node is about. -/
inductive Size : Node → Nat → Prop where
  | text {n : Node} {text : String} : n.stringValue = .ok text → Size n text.utf8ByteSize
  | array {n : Node} {nodes : List Node} :
      n.kind = .array → Document.elements n.raw = .ok nodes → Size n nodes.length
  | null {n : Node} : n.kind = .null → Size n 0

theorem kind_of_stringValue {n : Node} {text : String} (h : n.stringValue = .ok text) :
    n.kind = .string := by
  unfold stringValue at h
  split at h
  next hkind => exact hkind
  · cases h

theorem Demands.kind_eq {n : Node} {demand : Emptiness} (h : n.Demands demand) :
    n.kind = .string := by
  obtain ⟨text, htext, -⟩ := h
  exact kind_of_stringValue htext

theorem Size.empty_iff {n : Node} {count : Nat} (h : n.Size count) : n.Empty ↔ count = 0 := by
  cases h with
  | @text text htext =>
    rw [String.utf8ByteSize_eq_zero_iff]
    constructor
    · rintro (hempty | ⟨hkind, -⟩ | hkind)
      · exact Except.ok.inj (htext.symm.trans hempty)
      · cases hkind.symm.trans (kind_of_stringValue htext)
      · cases hkind.symm.trans (kind_of_stringValue htext)
    · rintro rfl
      exact .text htext
  | @array nodes hkind hnodes =>
    rw [List.length_eq_zero_iff]
    constructor
    · rintro (hempty | ⟨-, hempty⟩ | hnull)
      · cases hkind.symm.trans (kind_of_stringValue hempty)
      · exact Except.ok.inj (hnodes.symm.trans hempty)
      · cases hkind.symm.trans hnull
    · rintro rfl
      exact .array hkind hnodes
  | null hkind => exact iff_of_true (.null hkind) rfl

end Node

namespace Document

theorem Part.isValue {data : Bytes} {n : Node} (h : Part data n) : n.IsValue := by
  induction h with
  | root hroot => exact (root_sound hroot).1
  | field _ hfs hm _ => exact isValue_of_get? hfs hm
  | element _ _ hnodes hmem _ => exact elements_sound hnodes _ hmem
  | stripped _ hraw _ => exact withoutField_sound hraw

theorem Part.exists_size {data : Bytes} {n : Node} (h : Part data n)
    (hkind : (∃ text, n.stringValue = .ok text) ∨ n.kind = .array ∨ n.kind = .null) :
    ∃ count, n.Size count := by
  rcases hkind with ⟨text, htext⟩ | hkind | hkind
  · exact ⟨_, .text htext⟩
  · obtain ⟨nodes, hnodes⟩ := h.isValue.exists_elements_of_isValue hkind
    exact ⟨_, .array hkind hnodes⟩
  · exact ⟨_, .null hkind⟩

theorem readText_head {s : Bytes} {p : String × Rest s} (h : Json.readText s = .ok p) :
    s.head? = some (byte '"') := by
  cases s with
  | nil => cases h
  | cons b t =>
    rw [Json.readText] at h
    split at h
    next hb => rw [hb, List.head?_cons]
    · cases h

theorem fields_ne_ok_of_stringValue {n : Node} {text : String} (h : n.stringValue = .ok text)
    (fs : Fields) : fields n.raw ≠ .ok fs := by
  intro hfs
  rw [Node.stringValue, if_pos (Node.kind_of_stringValue h)] at h
  obtain ⟨members, -, hmembers, -⟩ := exists_members_of_fields hfs
  obtain ⟨r, hr⟩ := readDocument_ok h
  obtain ⟨r', hr'⟩ := readDocument_ok hmembers
  have hhead := (readText_head hr).symm.trans (readObject_head hr')
  exact absurd hhead (by decide)

end Document

namespace Compare

section

variable {path : String} {x : Node} {demand : Emptiness} (hx : x.Demands demand)

include hx

theorem nodes_of_size (config : Config) {n : Node} {count : Nat} (hn : n.Size count) :
    (nodes config path x n).value = .ofTest (byValue path x n) (.ok (demand.holds count)) := by
  have hkind := hx.kind_eq
  obtain ⟨expected, hexpected, hparse⟩ := hx
  rw [value_nodes, level]
  cases hn with
  | text htext =>
    simp only [Node.kind_of_stringValue htext, string, hkind, hexpected, htext,
      StringTest.ofExpected, hparse, StringTest.holds, bind, Except.bind, pure, Except.pure,
      ne_eq, not_true_eq_false, if_false]
  | array hnkind hnodes =>
    simp only [hnkind, hnodes, hkind, arrayLength, hexpected, Emptiness.ofExpected?, hparse, bind,
      Except.bind, pure, Except.pure]
  | null hnkind =>
    simp only [hnkind, null, hkind, hexpected, Emptiness.ofExpected?, hparse, bind, Except.bind,
      pure, Except.pure]

theorem missing_of_demands :
    missing path x =
      if demand = .empty then .matched else .mismatch ⟨path, x.text, "NotExist"⟩ := by
  have hkind := hx.kind_eq
  obtain ⟨expected, hexpected, hparse⟩ := hx
  unfold missing mayBeMissing
  simp only [hkind, hexpected, Emptiness.ofExpected?, hparse, bind, Except.bind, pure, Except.pure,
    ne_eq, not_true_eq_false, if_false, Option.some.injEq]
  cases demand <;> rfl

omit hx in
theorem nodes_of_missing (config : Config) {e a : Node} {fs gs : Fields} {key : String}
    (hfs : Document.fields e.raw = .ok fs) (honly : fs.toList = [(key, x)])
    (hakind : a.kind = .object) (hgs : Document.fields a.raw = .ok gs)
    (hlacks : gs.get? key = none) :
    (nodes config path e a).value = missing (path ++ "." ++ key) x := by
  have hboth := bothFields_eq_ok (Document.checkObject_of_fields hfs)
    (Document.checkObject_of_fields hgs) hfs hgs
  rw [value_nodes, level_of_objects hakind hboth, honly]
  simp only [List.map_cons, List.map_nil, atField, hlacks, Verdict.first]
  split
  next h => exact h.symm
  next => rfl

theorem failed_of_demands (config : Config) {n : Node}
    (hn : n.kind = .number ∨ n.kind = .boolean ∨ n.kind = .object) :
    ∃ d error, (nodes config path x n).value = .failed d error ∧ d.path = path := by
  have hkind := hx.kind_eq
  obtain ⟨expected, hexpected, hparse⟩ := hx
  rw [value_nodes, level]
  rcases hn with hn | hn | hn
  · cases hvalue : n.numberValue with
    | error error =>
      simp only [hn, number, hvalue]
      exact ⟨_, _, rfl, rfl⟩
    | ok y =>
      simp only [hn, number, hvalue, hkind, hexpected, NumberTest.ofExpected, hparse, bind,
        Except.bind]
      exact ⟨_, _, rfl, rfl⟩
  · simp only [hn, boolean, hkind]
    exact ⟨_, _, rfl, rfl⟩
  · cases hboth : bothFields x n with
    | error error =>
      simp only [hn]
      exact ⟨_, _, rfl, rfl⟩
    | ok both =>
      exact absurd (bothFields_fst hboth) (Document.fields_ne_ok_of_stringValue hexpected _)

end

inductive Opposed (path : String) : Verdict → Verdict → Prop where
  | first {d : Diagnostic} : d.path = path → Opposed path .matched (.mismatch d)
  | second {d : Diagnostic} : d.path = path → Opposed path (.mismatch d) .matched

/-- Of the two demands exactly one is satisfied by a text, an array or null, the first by those that
are empty, and by a missing field, too. Of a number, a boolean or an object either is an error. -/
theorem emptiness_complementary (config : Config) (path : String) {x y : Node}
    (hx : x.Demands .empty) (hy : y.Demands .notEmpty) :
    (∀ data n, Document.Part data n →
      (∃ text, n.stringValue = .ok text) ∨ n.kind = .array ∨ n.kind = .null →
      Opposed path (nodes config path x n).value (nodes config path y n).value ∧
        ((nodes config path x n).value = .matched ↔ n.Empty)) ∧
    (∀ e a fs gs key, Document.fields e.raw = .ok fs → a.kind = .object →
      Document.fields a.raw = .ok gs → gs.get? key = none →
      (fs.toList = [(key, x)] → (nodes config path e a).value = .matched) ∧
        (fs.toList = [(key, y)] → (nodes config path e a).value =
          .mismatch ⟨path ++ "." ++ key, y.text, "NotExist"⟩)) ∧
    ∀ n : Node, n.kind = .number ∨ n.kind = .boolean ∨ n.kind = .object →
      (∃ d error, (nodes config path x n).value = .failed d error ∧ d.path = path) ∧
        ∃ d error, (nodes config path y n).value = .failed d error ∧ d.path = path := by
  refine ⟨fun data n hn hkind => ?_, fun e a fs gs key hfs hakind hgs hlacks => ⟨?_, ?_⟩,
    fun n hkind => ⟨failed_of_demands hx config hkind, failed_of_demands hy config hkind⟩⟩
  · obtain ⟨count, hsize⟩ := hn.exists_size hkind
    rw [nodes_of_size hx config hsize, nodes_of_size hy config hsize, hsize.empty_iff,
      Emptiness.holds_notEmpty]
    cases count with
    | zero => exact ⟨.first rfl, iff_of_true rfl rfl⟩
    | succ count => exact ⟨.second rfl, iff_of_false Verdict.noConfusion (Nat.succ_ne_zero count)⟩
  · intro honly
    rw [nodes_of_missing config hfs honly hakind hgs hlacks, missing_of_demands hx]
    rfl
  · intro honly
    rw [nodes_of_missing config hfs honly hakind hgs hlacks, missing_of_demands hy]
    rfl

/-- The one demand with an escaped brace and a blank, the other with an escaped tab. -/
theorem emptiness_complementary_spelled :
    ∃ x y : Node, x.Demands .empty ∧ y.Demands .notEmpty ∧
      Opposed ".k" (nodes ⟨.zero⟩ ".k" x ⟨.array, Bytes.ofString "[]"⟩).value
        (nodes ⟨.zero⟩ ".k" y ⟨.array, Bytes.ofString "[]"⟩).value ∧
      (nodes ⟨.zero⟩ ".k" x ⟨.array, Bytes.ofString "[]"⟩).value = .matched ∧
      (nodes ⟨.zero⟩ ".k" ⟨.object,
          Bytes.ofString "\x7b\"l\":\"\x7b\x7bNot(\\tBeEmpty())\x7d\x7d\"\x7d"⟩
        ⟨.object, Bytes.ofString r#"{}"#⟩).value = .mismatch ⟨".k.l", y.text, "NotExist"⟩ ∧
      ∃ d error, (nodes ⟨.zero⟩ ".k" x ⟨.number, Bytes.ofString "0"⟩).value = .failed d error := by
  have hx : Node.Demands
      ⟨.string, Bytes.ofString "\"\\u007b\x7bBeEmpty( )\x7d\x7d\""⟩ .empty :=
    ⟨"\x7b\x7bBeEmpty( )\x7d\x7d", by cbv, by decide⟩
  have hy : Node.Demands
      ⟨.string, Bytes.ofString "\"\x7b\x7bNot(\\tBeEmpty())\x7d\x7d\""⟩ .notEmpty :=
    ⟨"\x7b\x7bNot(\tBeEmpty())\x7d\x7d", by cbv, by decide⟩
  obtain ⟨hsize, hmissing, hfailed⟩ := emptiness_complementary ⟨.zero⟩ ".k" hx hy
  have hpart : Document.Part (Bytes.ofString "[]") ⟨.array, Bytes.ofString "[]"⟩ :=
    .root (by cbv)
  have hempty : Node.Empty ⟨.array, Bytes.ofString "[]"⟩ := .array rfl (by cbv)
  have hfields : Document.fields
      (Bytes.ofString "\x7b\"l\":\"\x7b\x7bNot(\\tBeEmpty())\x7d\x7d\"\x7d") =
        .ok (.ofList [("l",
          ⟨.string, Bytes.ofString "\"\x7b\x7bNot(\\tBeEmpty())\x7d\x7d\""⟩)]) := by cbv
  have hnone : Document.fields (Bytes.ofString r#"{}"#) = .ok .empty := by cbv
  obtain ⟨hopposed, hmatched⟩ := hsize _ _ hpart (.inr (.inl rfl))
  obtain ⟨⟨d, error, herror, -⟩, -⟩ := hfailed ⟨.number, Bytes.ofString "0"⟩ (.inl rfl)
  exact ⟨_, _, hx, hy, hopposed, hmatched.2 hempty,
    (hmissing ⟨.object, _⟩ _ _ _ _ hfields rfl hnone rfl).2 rfl, d, error, herror⟩

end Compare

end DocMatch
