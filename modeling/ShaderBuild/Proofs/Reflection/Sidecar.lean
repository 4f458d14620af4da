import ShaderBuild.Proofs.Yaml.ReadBack
import ShaderBuild.Reflection.Sidecar

namespace ShaderBuild

open Yaml Yaml.Node

theorem readWord_wordNode (n : UInt32) : (wordNode n).readWord = pure n := by
  have hlt : n.toNat < UInt32.size := n.toNat_lt_size
  simp only [wordNode, ofWord, readWord, resolve, pure_bind, CoreSchema.natural?_toString]
  simp [hlt]

theorem wordNode_isSomething (n : UInt32) : (wordNode n).IsSomething := by
  refine ⟨rfl, fun _ => ⟨?_, CoreSchema.isNull_toString _⟩⟩
  cases he : (toString n.toNat).isEmpty with
  | false => rfl
  | true =>
    have hn := CoreSchema.natural?_toString n.toNat
    rw [String.isEmpty_iff.1 he] at hn
    cases hn

theorem readOption_optionNode {α : Type} {write : α → Node} {reader : Node → Reading α}
    {o : Option α} (hs : ∀ a, (write a).IsSomething) (h : ∀ a ∈ o, reader (write a) = pure a) :
    (optionNode write o).readOption reader = pure o := by
  cases o with
  | none => rfl
  | some a => rw [optionNode, readOption_of_isSomething (hs a), h a rfl, map_pure]

theorem ofName?_name (k : ScalarKind) : ScalarKind.ofName? k.name = some k := by
  cases k <;> decide

theorem readScalarKind_name (k : ScalarKind) : readScalarKind (Node.ofText k.name) = pure k :=
  readName_ofText (ofName?_name k)

section Labelled

variable {room : Bool} {element : Node → Reading MemberType}
  {members : Node → Reading (List Member)}

theorem ofLabelled_scalar (k : ScalarKind) :
    MemberType.ofLabelled room element members (MemberType.scalar k).toNode =
      pure (.scalar k) := by
  rw [MemberType.ofLabelled, MemberType.toNode, readLabel_labelled (by nofun) rfl, pure_bind]
  simp [readText_labelled, ofName?_name]

theorem ofLabelled_vector (k : ScalarKind) (n : UInt32) :
    MemberType.ofLabelled true element members (MemberType.vector k n).toNode =
      pure (.vector k n) := by
  rw [MemberType.ofLabelled, MemberType.toNode, readLabel_labelled (by nofun) rfl, pure_bind]
  simp only -- the label picks its own branch
  rw [readFields_labelled "Vector" (by rfl) (by decide), pure_bind]
  simp [wantField, List.lookup_cons, readScalarKind_name, readWord_wordNode]

theorem ofLabelled_matrix (k : ScalarKind) (n m : UInt32) :
    MemberType.ofLabelled true element members (MemberType.matrix k n m).toNode =
      pure (.matrix k n m) := by
  rw [MemberType.ofLabelled, MemberType.toNode, readLabel_labelled (by nofun) rfl, pure_bind]
  simp only
  rw [readFields_labelled "Matrix" (by rfl) (by decide), pure_bind]
  simp [wantField, List.lookup_cons, readScalarKind_name, readWord_wordNode]

theorem ofLabelled_array {e : MemberType} (he : element e.toNode = pure e)
    (count stride : Option UInt32) :
    MemberType.ofLabelled true element members (MemberType.array e count stride).toNode =
      pure (.array e count stride) := by
  rw [MemberType.ofLabelled, MemberType.toNode, readLabel_labelled (by nofun) rfl, pure_bind]
  simp only
  rw [readFields_labelled "Array" (by rfl) (by decide), pure_bind]
  simp [wantField, wantOption, List.lookup_cons, he, readOption_optionNode, wordNode_isSomething,
    readWord_wordNode]

theorem ofLabelled_struct {ms : List Member}
    (hms : members (.sequence {} (memberNodes ms)) = pure ms) (name : String) :
    MemberType.ofLabelled true element members (MemberType.struct name ms).toNode =
      pure (.struct name ms) := by
  rw [MemberType.ofLabelled, MemberType.toNode, readLabel_labelled (by nofun) rfl, pure_bind]
  simp only
  rw [readFields_labelled "Struct" (by rfl) (by decide), pure_bind]
  simp [wantField, List.lookup_cons, hms, readText_ofText]

end Labelled

theorem memberOfNode_record {d : Nat} {type : MemberType}
    (h : MemberType.ofNode d type.toNode = pure type) (name : String) (offset : UInt32) :
    memberOfNode (d + 1) (.record [("name", .ofText name), ("offset", wordNode offset),
      ("member_type", type.toNode)]) = pure ⟨name, offset, type⟩ := by
  rw [memberOfNode, readFields_record (by rfl) (by decide), pure_bind]
  simp [wantField, List.lookup_cons, readText_ofText, readWord_wordNode, h]

mutual

/-- A member type is read as it was written, where there is room for it. -/
theorem MemberType.ofNode_toNode : (t : MemberType) → (d : Nat) → t.toNode.depth ≤ d →
    MemberType.ofNode d t.toNode = pure t
  | .scalar k, d, _ => by cases d <;> exact ofLabelled_scalar k
  | .vector k n, d, h => by
    rw [MemberType.toNode, depth_labelled, depth_record_le_iff] at h
    obtain ⟨d, rfl, -⟩ := h
    exact ofLabelled_vector k n
  | .matrix k n m, d, h => by
    rw [MemberType.toNode, depth_labelled, depth_record_le_iff] at h
    obtain ⟨d, rfl, -⟩ := h
    exact ofLabelled_matrix k n m
  | .array e count stride, d, h => by
    rw [MemberType.toNode, depth_labelled, depth_record_le_iff] at h
    obtain ⟨d, rfl, h⟩ := h
    have he := MemberType.ofNode_toNode e d (h ("element", _) (by simp))
    exact ofLabelled_array he count stride
  | .struct name ms, d, h => by
    rw [MemberType.toNode, depth_labelled, depth_record_le_iff] at h
    obtain ⟨d, rfl, h⟩ := h
    obtain ⟨d, rfl, hd⟩ := depth_sequence_le_iff.1
      (h ("members", .sequence {} (memberNodes ms)) (by simp))
    exact ofLabelled_struct (mapM_memberOfNode ms d hd) name

theorem mapM_memberOfNode : (ms : List Member) → (d : Nat) →
    (∀ n ∈ memberNodes ms, n.depth ≤ d) → (memberNodes ms).mapM (memberOfNode d) = pure ms
  | [], _, _ => rfl
  | ⟨name, offset, type⟩ :: r, d, h => by
    rw [memberNodes, List.forall_mem_cons] at h
    obtain ⟨hm, hr⟩ := h
    rw [depth_record_le_iff] at hm
    obtain ⟨d, rfl, hm⟩ := hm
    have ht := MemberType.ofNode_toNode type d (hm ("member_type", _) (by simp))
    rw [memberNodes, List.mapM_cons, memberOfNode_record ht, pure_bind, mapM_memberOfNode r _ hr,
      pure_bind]

end

theorem BufferLayout.ofNode_toNode (l : BufferLayout) (d : Nat) (h : l.toNode.depth ≤ d) :
    BufferLayout.ofNode d l.toNode = pure l := by
  obtain ⟨d, rfl, hf⟩ := depth_record_le_iff.1 h
  obtain ⟨d, rfl, hd⟩ := depth_sequence_le_iff.1
    (hf ("members", .sequence {} (memberNodes l.members)) (by simp))
  have hms : membersOfNode (d + 1) (.sequence {} (memberNodes l.members)) = pure l.members :=
    mapM_memberOfNode l.members d hd
  rw [BufferLayout.ofNode, BufferLayout.toNode, decide_eq_true (Nat.succ_pos _),
    readFields_record (by rfl) (by decide), pure_bind]
  simp [wantField, List.lookup_cons, readText_ofText, readWord_wordNode, hms]

theorem Binding.ofNode_toNode (b : Binding) (d : Nat) (h : b.toNode.depth ≤ d) :
    Binding.ofNode d b.toNode = pure b := by
  obtain ⟨d, rfl, hf⟩ := depth_record_le_iff.1 h
  have hlayout : (optionNode BufferLayout.toNode b.layout).readOption (BufferLayout.ofNode d) =
      pure b.layout := by
    refine readOption_optionNode (fun _ => trivial) fun l hl => ?_
    have hd := hf ("layout", optionNode BufferLayout.toNode b.layout) (by simp)
    rw [Option.mem_def.1 hl] at hd
    exact BufferLayout.ofNode_toNode l d hd
  have htype : (optionNode .ofText b.typeName).readOption Node.readText = pure b.typeName :=
    readOption_optionNode ofText_isSomething fun s _ => readText_ofText s
  have hbucket : (Node.ofText b.bucket.name).readName Bucket.ofName? = pure b.bucket :=
    readName_ofText (by cases b.bucket <;> decide)
  rw [Binding.ofNode, Binding.toNode, decide_eq_true (Nat.succ_pos _),
    readFields_record (by rfl) (by decide), pure_bind]
  simp [wantField, wantOption, List.lookup_cons, readText_ofText, readWord_wordNode, htype, hbucket,
    hlayout]

theorem StageReflection.ofNode_toNode (s : StageReflection) (d : Nat) (h : s.toNode.depth ≤ d) :
    StageReflection.ofNode d s.toNode = pure s := by
  obtain ⟨d, rfl, hf⟩ := depth_record_le_iff.1 h
  obtain ⟨d, rfl, hd⟩ := depth_sequence_le_iff.1
    (hf ("bindings", .sequence {} (s.bindings.map Binding.toNode)) (by simp))
  have hbindings : (s.bindings.map Binding.toNode).mapM (Binding.ofNode d) = pure s.bindings :=
    mapM_written fun b hb => Binding.ofNode_toNode b d (hd _ (List.mem_map_of_mem hb))
  have hstage : (Node.ofText s.stage.name).readName Stage.ofName? = pure s.stage :=
    readName_ofText (by cases s.stage <;> decide)
  rw [StageReflection.ofNode, StageReflection.toNode, decide_eq_true (Nat.succ_pos _),
    readFields_record (by rfl) (by decide), pure_bind]
  simp [wantField, List.lookup_cons, readText_ofText, hstage, readList_sequence, hbindings]

/-- A reflection is read off its own tree, however deep that is. -/
theorem Reflection.ofNode_toNode (r : Reflection) (d : Nat) (h : r.toNode.depth ≤ d) :
    Reflection.ofNode d r.toNode = pure r := by
  obtain ⟨d, rfl, hf⟩ := depth_record_le_iff.1 h
  obtain ⟨d, rfl, hd⟩ := depth_sequence_le_iff.1
    (hf ("stages", .sequence {} (r.stages.map StageReflection.toNode)) (by simp))
  have hstages : (r.stages.map StageReflection.toNode).mapM (StageReflection.ofNode d) =
      pure r.stages :=
    mapM_written fun s hs => StageReflection.ofNode_toNode s d (hd _ (List.mem_map_of_mem hs))
  have hlanguage : (Node.ofText r.language.name).readName SourceLanguage.ofName? =
      pure r.language :=
    readName_ofText (by cases r.language <;> decide)
  rw [Reflection.ofNode, Reflection.toNode, decide_eq_true (Nat.succ_pos _),
    readFields_record (by rfl) (by decide), pure_bind]
  simp [wantField, List.lookup_cons, hlanguage, readList_sequence, hstages]

/-- What is written into a sidecar is read back from it. The tree that is written holds the
reflection, however deep types nest in it; where the text of the tree is read back as the tree, the
sidecar is read as the reflection. -/
theorem sidecar_is_read_back (r : Reflection) :
    (∀ d, r.toNode.depth ≤ d → Reflection.ofNode d r.toNode = pure r) ∧
      (r.toNode.ReadsBack → Reflection.ofYaml r.toYaml = .ok r) := by
  refine ⟨Reflection.ofNode_toNode r, fun h => ?_⟩
  have hr := Reflection.ofNode_toNode r _ h.depth_le
  rw [Reflection.ofYaml, mapError_ok_iff, bind_ok_iff]
  exact ⟨_, h.tree, Document.read_of_eq_pure hr⟩

def awkwardNames : Reflection where
  language := .hlsl
  stages := [{
    stage := .vertex
    entryPoint := "null"
    bindings := [
      { name := "007", typeName := some "~", bucket := .storageBuffer, set := 0, slot := 1,
        layout := some ⟨"a: b", 16, [
          ⟨"", 0, .array (.struct "line\nbreak " [⟨"true", 0, .scalar .float⟩]) none (some 16)⟩]⟩ },
      { name := " #x", typeName := none, bucket := .texture, set := 4294967295, slot := 0,
        layout := none }] }]

theorem awkwardNames_readsBack : awkwardNames.toNode.ReadsBack := by
  apply Node.ReadsBack.of_toOption
  · unfold Node.render
    rw [Document.ofText, Token.scan_ofList]
    decide +kernel
  · decide +kernel

theorem awkwardNames_are_read_back :
    awkwardNames.toNode.ReadsBack ∧ Reflection.ofYaml awkwardNames.toYaml = .ok awkwardNames :=
  ⟨awkwardNames_readsBack, (sidecar_is_read_back awkwardNames).2 awkwardNames_readsBack⟩

end ShaderBuild
