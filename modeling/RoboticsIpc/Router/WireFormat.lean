import RoboticsIpc.Router.NodeGateway
import RoboticsIpc.Router.PythonPeer

/-!
One wire format: what the C++ router, a Python bridge and a JavaScript bridge write for
the same values are the same 64 bytes, each of them reads the values of the others, and a
frame that passes through a bridge field by field comes out as it went in.
-/

namespace RoboticsIpc

open ByteBuffer Checked

/-- A frame received, viewed and made again from the view. -/
def PythonPeer.remade (data : Bytes) : Except ValueError Bytes := do
  let frame ← fromBytes data
  let again ← make (fromFrame frame).args
  return toBytes again

/-- A frame received, read by the getters and made again from what they return. -/
def NodeGateway.remade (data : Bytes) : Except JsError Bytes := do
  let frame ← fromBytes data
  let again ← makeFrame (getters frame).args
  return toBytes again

namespace RouterFrame

theorem fromBytes_python (f : RouterFrame) : PythonPeer.fromBytes f.bytes = .ok f :=
  dif_pos f.size

theorem fromBytes_node (f : RouterFrame) : NodeGateway.fromBytes f.bytes = .ok f := by
  have enough : NodeGateway.routerFrameSize ≤ f.bytes.length := Nat.le_of_eq f.size.symm
  rw [NodeGateway.fromBytes, dif_pos enough]
  refine congrArg Except.ok (RouterFrame.ext ?_)
  exact List.take_of_length_le (Nat.le_of_eq f.size)

/-- A receive of a whole frame is that frame. -/
theorem receive_bytes (f scratch : RouterFrame) : scratch.receive f.bytes = f :=
  RouterFrame.ext (receive_whole f.size scratch)

end RouterFrame

/-- The C++, the Python and the JavaScript codec are one. A frame is built in C++ by
`init` and calls of the other eight setters, in any order and each as often as one likes. -/
theorem one_wire_format :
    (∀ v : FrameFields, ∃ wire : Bytes, wire.length = kRouterFrameSize ∧
      (∀ (f : RouterFrame) (calls : List FrameSetter), (∀ c ∈ calls, c ∈ v.setters) →
        (∀ c ∈ v.setters, c = .source v.source ∨ c ∈ calls) →
        (FrameSetter.callAll calls (f.init v.source)).result = .ok () ∧
          (FrameSetter.callAll calls (f.init v.source)).state.bytes = wire) ∧
      (PythonPeer.make v.view.args).map PythonPeer.toBytes = .ok wire ∧
      (NodeGateway.makeFrame v.view.args).map NodeGateway.toBytes = .ok wire ∧
      (∀ scratch : RouterFrame, (scratch.receive wire).fields = v.stripped) ∧
      (PythonPeer.fromBytes wire).map PythonPeer.fromFrame = .ok v.stripped.view ∧
      (NodeGateway.fromBytes wire).map NodeGateway.getters = .ok v.stripped.view) ∧
    ∀ bytes : Bytes, bytes.length = kRouterFrameSize →
      PythonPeer.remade bytes = .ok bytes ∧ NodeGateway.remade bytes = .ok bytes := by
  constructor
  · intro v
    refine ⟨v.frame.bytes, v.frame.size, ?_, ?_, ?_, ?_, ?_, ?_⟩
    · intro f calls own all
      have built : FrameSetter.callAll calls (f.init v.source) = ⟨v.frame, .ok ()⟩ := by
        apply v.callAll_setters own
        intro c mem
        rcases all c mem with rfl | called
        · exact .inl (FrameFields.readField_init v.source f)
        · exact .inr called
      rw [built]
      exact ⟨rfl, rfl⟩
    · rw [PythonPeer.make_fields]
      rfl
    · rw [NodeGateway.makeFrame_fields]
      rfl
    · intro scratch
      rw [RouterFrame.receive_bytes, v.fields_frame]
    · rw [RouterFrame.fromBytes_python, ← v.fields_frame, ← PythonPeer.fromFrame_eq]
      rfl
    · rw [RouterFrame.fromBytes_node, ← v.fields_frame, ← NodeGateway.getters_eq]
      rfl
  · intro bytes whole
    obtain ⟨f, rfl⟩ : ∃ f : RouterFrame, f.bytes = bytes := ⟨⟨bytes, whole⟩, rfl⟩
    constructor
    · rw [PythonPeer.remade, f.fromBytes_python, ok_bind, PythonPeer.fromFrame_eq,
        PythonPeer.make_fields, ok_bind, f.frame_fields]
      rfl
    · rw [NodeGateway.remade, f.fromBytes_node, ok_bind, NodeGateway.getters_eq,
        NodeGateway.makeFrame_fields, ok_bind, f.frame_fields]
      rfl

/-- The largest values, and a payload with a zero inside and one at the end. -/
def zeroTail : FrameFields where
  source := 7
  flags := 0x51
  topicId := 0x0102
  seq := 0xFFFFFFFF
  timestampNs := 0xFFFFFFFFFFFFFFFF
  sidebandIdx := 3
  sidebandLen := 0xFFFFFFFFFFFF
  sidebandSeq := 9
  payload := [1, 0, 2, 0]
  lenFits := by decide
  payloadFits := by decide

theorem one_wire_format_zeroTail :
    (∃ wire : Bytes,
      (FrameSetter.callAll zeroTail.setters.reverse (RouterFrame.zero.init 7)).state.bytes = wire ∧
      (PythonPeer.make zeroTail.view.args).map PythonPeer.toBytes = .ok wire ∧
      (NodeGateway.fromBytes wire).map NodeGateway.getters = .ok zeroTail.stripped.view) ∧
    zeroTail.stripped.payload = [1, 0, 2] ∧
    PythonPeer.remade (List.replicate 64 255) = .ok (List.replicate 64 255) := by
  obtain ⟨wire, -, built, python, -, -, -, node⟩ := one_wire_format.1 zeroTail
  have cpp := built RouterFrame.zero zeroTail.setters.reverse (fun _ mem => List.mem_reverse.mp mem)
    fun _ mem => .inr (List.mem_reverse.mpr mem)
  exact ⟨⟨wire, cpp.2, python, node⟩, by decide,
    (one_wire_format.2 (List.replicate 64 255) List.length_replicate).1⟩

end RoboticsIpc
