import Mathlib
import DocMatch.Proofs.Binary64
import DocMatch.Proofs.Compare.Level
import DocMatch.Proofs.Correlation.Multiset
import DocMatch.Proofs.Document

/-!
A document compared with itself. It matches if nothing in it asks for anything but its own value: no
text opens an expression, and no array holds anything but scalars. Main statement: `documents_self`.
-/

namespace DocMatch

/-- A value that stands for itself, with all values that its fields lead to: what is a text there
denotes one, and it opens no expression. Scalars in an array are compared as they are written, so
they may be of any text. -/
inductive Node.Plain : Node → Prop where
  | null {n : Node} : n.kind = .null → Plain n
  | boolean {n : Node} : n.kind = .boolean → Plain n
  | number {n : Node} {x : Binary64} :
      n.kind = .number → n.numberValue = .ok x → x.isFinite = true → Plain n
  | string {n : Node} {text : String} :
      n.kind = .string → n.stringValue = .ok text → Expression.recognize? text.toList = none →
      Plain n
  | array {n : Node} :
      n.kind = .array →
      (∀ nodes, Document.elements n.raw = .ok nodes → ∀ m ∈ nodes, m.isPrimitive = true) → Plain n
  | object {n : Node} {fs : Fields} :
      n.kind = .object → Document.fields n.raw = .ok fs → (∀ f ∈ fs.toList, Plain f.2) → Plain n

namespace Compare

open Correlation Document

variable {config : Config} {path : String}

theorem string_self {n : Node} {text : String} (hkind : n.kind = .string)
    (htext : n.stringValue = .ok text) (hplain : Expression.recognize? text.toList = none) :
    string path n n = .matched := by
  have hparse : Expression.parse text = .ok none := by rw [Expression.parse, hplain]
  have htest : StringTest.ofExpected text = .ok (.equal text) := by
    simp only [StringTest.ofExpected, hparse, bind, Except.bind]
    rfl
  rw [string, if_neg (not_not_intro hkind)]
  simp [htext, htest, bind, Except.bind, StringTest.holds, Verdict.ofTest]

theorem number_self (hvalid : config.isValid = true) {n : Node} {x : Binary64}
    (hkind : n.kind = .number) (hx : n.numberValue = .ok x) (hfinite : x.isFinite = true) :
    number config path n n = .matched := by
  have hwithin := NumberTest.within_self hfinite (Config.zero_le_tolerance hvalid)
  rw [number_of_numberValue hkind hx hx, hwithin]
  rfl

theorem boolean_self {n : Node} {value : Bool} (hkind : n.kind = .boolean)
    (hvalue : n.booleanValue = .ok value) : boolean path n n = .matched := by
  simp [boolean, hkind, hvalue, bind, Except.bind, pure, Except.pure, Verdict.ofTest]

theorem arrayLevel_self {c : String → Node → Node → Verdict} {nodes : List Node}
    (h : ∀ n ∈ nodes, n.isPrimitive = true) : arrayLevel c path nodes nodes = .matched := by
  have hfind : nodes.find? (!·.isPrimitive) = none := List.find?_eq_none.2 (by simpa using h)
  rw [arrayLevel, if_pos (List.all_eq_true.2 h), comparePrimitives, hfind]
  dsimp only
  rw [if_pos (sameMultiset_iff_perm.2 (.refl nodes))]

theorem atField_self {c : String → Node → Node → Verdict} {fs : Fields} {f : Field}
    (hf : f ∈ fs.toList) : atField c path fs f = c (path ++ "." ++ f.1) f.2 f.2 := by
  rw [atField, Fields.get?_of_mem hf]

theorem nodes_self (hvalid : config.isValid = true) {n : Node} (hn : n.IsValue) (h : n.Plain) :
    (nodes config path n n).value = .matched := by
  -- by induction on why the node is plain
  induction h generalizing path with
  | null hkind => simp only [value_nodes, level, hkind, null]
  | boolean hkind =>
    obtain ⟨value, hvalue⟩ := hn.exists_booleanValue hkind
    simp only [value_nodes, level, hkind, boolean_self hkind hvalue]
  | number hkind hx hfinite =>
    simp only [value_nodes, level, hkind, number_self hvalid hkind hx hfinite]
  | string hkind htext hplain =>
    simp only [value_nodes, level, hkind, string_self hkind htext hplain]
  | array hkind hprimitive =>
    obtain ⟨nodes, hnodes⟩ := hn.exists_elements_of_isValue hkind
    rw [value_nodes, level_of_arrays hkind hnodes hkind hnodes]
    exact arrayLevel_self (hprimitive nodes hnodes)
  | object hkind hfields _ ih =>
    have hchecked := checkObject_of_fields hfields
    rw [value_nodes, level_of_objects hkind (bothFields_eq_ok hchecked hchecked hfields hfields)]
    refine Verdict.first_eq_matched_iff.2 fun v hv => ?_
    obtain ⟨f, hf, rfl⟩ := List.mem_map.1 hv
    rw [atField_self hf]
    exact ih f hf (fields_sound hfields f hf)

/-- A plain document matches itself, whatever the tolerance. -/
theorem documents_self {config : Config} (hvalid : config.isValid = true) {document : Bytes}
    {n : Node} (hroot : root document = .ok n) (hkind : n.kind = .object) (h : n.Plain) :
    (documents config document document).value = .matched := by
  have hobject : objectRoot document = .ok n := by rw [objectRoot_of_root hroot, if_pos hkind]
  rw [documents_of_objectRoot hobject hobject]
  exact nodes_self hvalid (root_sound hroot).1 h

/-- A key with an escape, an array with a text that opens an expression, and a key twice. -/
def nestedSample : Bytes :=
  Bytes.ofString
    "\x7b\"\\u0061\":\x7b\"l\":[\"\x7b\x7bNot(\"],\"n\":1.5\x7d,\"k\":0,\"k\":\"\"\x7d"

theorem documents_self_nested :
    ∃ n, Config.default.isValid = true ∧ root nestedSample = .ok n ∧ n.kind = .object ∧ n.Plain ∧
      (documents .default nestedSample nestedSample).value = .matched := by
  have hvalid : Config.default.isValid = true := by decide +kernel
  have hroot : root nestedSample = .ok ⟨.object, nestedSample⟩ := by cbv
  have hfields : fields nestedSample =
      .ok (.ofList [("a", ⟨.object, Bytes.ofString "\x7b\"l\":[\"\x7b\x7bNot(\"],\"n\":1.5\x7d"⟩),
        ("k", ⟨.string, Bytes.ofString "\"\""⟩)]) := by cbv
  have hinner : fields (Bytes.ofString "\x7b\"l\":[\"\x7b\x7bNot(\"],\"n\":1.5\x7d") =
      .ok (.ofList [("l", ⟨.array, Bytes.ofString "[\"\x7b\x7bNot(\"]"⟩),
        ("n", ⟨.number, Bytes.ofString "1.5"⟩)]) := by cbv
  have hlist : Node.Plain ⟨.array, Bytes.ofString "[\"\x7b\x7bNot(\"]"⟩ := by
    have helements : elements (Bytes.ofString "[\"\x7b\x7bNot(\"]") =
        .ok [⟨.string, Bytes.ofString "\"\x7b\x7bNot(\""⟩] := by cbv
    refine .array rfl fun nodes hnodes => ?_
    obtain rfl := Except.ok.inj (helements.symm.trans hnodes)
    decide
  have hnumber : Node.Plain ⟨.number, Bytes.ofString "1.5"⟩ := by
    have hvalue : Node.numberValue ⟨.number, Bytes.ofString "1.5"⟩ =
        .ok (.finite false (3 <<< 1073)) := by
      rw [Node.numberValue, Node.text, Utf8.lossy_ofString]
      decide +kernel
    exact .number rfl hvalue rfl
  have htext : Node.Plain ⟨.string, Bytes.ofString "\"\""⟩ :=
    .string rfl (by cbv) (by decide)
  have hplain : Node.Plain ⟨.object, nestedSample⟩ := by
    refine .object rfl hfields fun f hf => ?_
    have hmem := Fields.mem_ofList hf
    simp only [List.mem_cons, List.not_mem_nil, or_false] at hmem
    rcases hmem with rfl | rfl
    · refine .object rfl hinner fun f hf => ?_
      have hmem := Fields.mem_ofList hf
      simp only [List.mem_cons, List.not_mem_nil, or_false] at hmem
      rcases hmem with rfl | rfl
      · exact hlist
      · exact hnumber
    · exact htext
  exact ⟨_, hvalid, hroot, rfl, hplain, documents_self hvalid hroot rfl hplain⟩

end Compare

end DocMatch
