import Mathlib.Data.List.Induction
import TextEditor.Proofs.Server.Headers

/-!
# Frames in pieces

A receiver puts each piece that arrives behind the bytes it has left and splits off the frames that
are complete.  Where the bytes were cut does not matter: the bodies are those of the bytes in one
piece, a fault is found in either or in none, and without a fault the same bytes are left.
-/

namespace TextEditor.Server.Frame

variable {bytes body rest : Bytes}

/-! ## One frame -/

/-- A frame that is complete stays so, in front of whatever comes. -/
theorem decode_append_of_some (h : decode bytes = .ok (some (body, rest))) (more : Bytes) :
    decode (bytes ++ more) = .ok (some (body, rest ++ more)) := by
  rw [decode] at h ⊢
  cases hheader : parseHeader bytes with
  | error fault => simp [hheader] at h
  | ok lengths =>
  cases lengths with
  | none => simp [hheader] at h
  | some lengths =>
  obtain ⟨length, headerLength⟩ := lengths
  rw [parseHeader_append_of_some hheader more]
  rw [hheader] at h
  dsimp only at h ⊢
  split at h
  · cases h
  · next henough =>
    obtain ⟨rfl, rfl⟩ := Prod.mk.inj (Option.some.inj (Except.ok.inj h))
    have hbody : length ≤ (bytes.drop headerLength).length := by
      rw [List.length_drop]
      omega
    rw [if_neg (by rw [List.length_append]; omega),
      List.drop_append_of_le_length (show headerLength ≤ bytes.length by omega),
      List.take_append_of_le_length hbody, List.drop_append_of_le_length (by omega)]

theorem decode_eq_error_iff {fault : FrameFault} :
    decode bytes = .error fault ↔ parseHeader bytes = .error fault := by
  unfold decode
  cases parseHeader bytes with
  | error fault' => exact ⟨fun h => by cases h; rfl, fun h => by cases h; rfl⟩
  | ok lengths =>
    cases lengths with
    | none => exact iff_of_false nofun nofun
    | some lengths =>
      refine iff_of_false (fun h => ?_) nofun
      dsimp only at h
      split at h <;> cases h

/-- Bytes that are refused stay so, with the same message. -/
theorem decode_append_of_error {fault : FrameFault} (h : decode bytes = .error fault)
    (more : Bytes) :
    ∃ fault', decode (bytes ++ more) = .error fault' ∧ fault'.message = fault.message := by
  obtain ⟨fault', hfault, hmessage⟩ := parseHeader_append_of_error (decode_eq_error_iff.1 h) more
  exact ⟨fault', decode_eq_error_iff.2 hfault, hmessage⟩

theorem decodeAll_of_error {fault : FrameFault} (h : decode bytes = .error fault) :
    decodeAll bytes = { rest := bytes, fault := some fault } := by
  rw [decodeAll]
  split
  · next fault' hfault =>
    rw [h] at hfault
    cases hfault
    rfl
  · next hnone => rw [h] at hnone; cases hnone
  · next hsome => rw [h] at hsome; cases hsome

theorem decodeAll_of_none (h : decode bytes = .ok none) : decodeAll bytes = { rest := bytes } := by
  rw [decodeAll]
  split
  · next hfault => rw [h] at hfault; cases hfault
  · rfl
  · next hsome => rw [h] at hsome; cases hsome

/-! ## A receiver -/

/-- What a receiver has after one more piece.  After a fault it takes in nothing. -/
def Contents.receive (c : Contents) (piece : Bytes) : Contents :=
  match c.fault with
  | some _ => c
  | none =>
    let next := decodeAll (c.rest ++ piece)
    { next with bodies := c.bodies ++ next.bodies }

/-- The same bodies, and the same fault in other bytes or none and the same bytes left. -/
structure Contents.Alike (c c' : Contents) : Prop where
  bodies : c.bodies = c'.bodies
  fault : c.fault.map FrameFault.message = c'.fault.map FrameFault.message
  rest : c.fault = none → c.rest = c'.rest

namespace Contents

variable {c c' c'' : Contents}

theorem Alike.refl (c : Contents) : c.Alike c := ⟨rfl, rfl, fun _ => rfl⟩

theorem Alike.fault_eq_none (h : c.Alike c') (hnone : c.fault = none) : c'.fault = none := by
  have hfault := h.fault
  rw [hnone] at hfault
  exact Option.map_eq_none_iff.1 hfault.symm

theorem Alike.trans (h : c.Alike c') (h' : c'.Alike c'') : c.Alike c'' where
  bodies := h.bodies.trans h'.bodies
  fault := h.fault.trans h'.fault
  rest hnone := (h.rest hnone).trans (h'.rest (h.fault_eq_none hnone))

theorem receive_of_none (h : c.fault = none) (piece : Bytes) :
    c.receive piece =
      { decodeAll (c.rest ++ piece) with
        bodies := c.bodies ++ (decodeAll (c.rest ++ piece)).bodies } := by
  rw [receive, h]

theorem receive_of_some {fault : FrameFault} (h : c.fault = some fault) (piece : Bytes) :
    c.receive piece = c := by
  rw [receive, h]

/-- A body that was found before stays in front. -/
theorem receive_cons (c : Contents) (body piece : Bytes) :
    ({ c with bodies := body :: c.bodies } : Contents).receive piece =
      { c.receive piece with bodies := body :: (c.receive piece).bodies } := by
  obtain ⟨bodies, rest, fault⟩ := c
  cases fault with
  | none => rfl
  | some fault => rfl

theorem Alike.receive (h : c.Alike c') (piece : Bytes) :
    (c.receive piece).Alike (c'.receive piece) := by
  cases hfault : c.fault with
  | none =>
    rw [receive_of_none hfault, receive_of_none (h.fault_eq_none hfault), h.bodies, h.rest hfault]
    exact Alike.refl _
  | some fault =>
    have hfault' := h.fault
    rw [hfault] at hfault'
    obtain ⟨fault', hsome, -⟩ := Option.map_eq_some_iff.1 hfault'.symm
    rw [receive_of_some hfault, receive_of_some hsome]
    exact h

end Contents

/-- It does not matter whether bytes come in two pieces or in one. -/
theorem alike_receive (bytes more : Bytes) :
    ((decodeAll bytes).receive more).Alike (decodeAll (bytes ++ more)) := by
  fun_induction decodeAll bytes with
  | case1 bytes fault h =>
    obtain ⟨fault', hfault, hmessage⟩ := decode_append_of_error h more
    rw [decodeAll_of_error hfault]
    exact ⟨rfl, congrArg some hmessage.symm, nofun⟩
  | case2 bytes h => exact Contents.Alike.refl _
  | case3 bytes body rest h contents ih =>
    rw [decodeAll_of_some (decode_append_of_some h more), Contents.receive_cons]
    exact ⟨congrArg (body :: ·) ih.bodies, ih.fault, ih.rest⟩

/-- The bodies that a receiver finds do not depend on the pieces in which the bytes come, nor does
whether it finds a fault and which message this has; and if it finds none, the bytes that are left
do not either. -/
theorem foldl_receive (pieces : List Bytes) :
    (pieces.foldl Contents.receive {}).bodies = (decodeAll pieces.flatten).bodies ∧
    (pieces.foldl Contents.receive {}).fault.map FrameFault.message =
      (decodeAll pieces.flatten).fault.map FrameFault.message ∧
    ((pieces.foldl Contents.receive {}).fault = none →
      (pieces.foldl Contents.receive {}).rest = (decodeAll pieces.flatten).rest) := by
  have halike : (pieces.foldl Contents.receive {}).Alike (decodeAll pieces.flatten) := by
    induction pieces using List.reverseRecOn with
    | nil => rw [List.flatten_nil, decodeAll_of_none rfl]; exact Contents.Alike.refl _
    | append_singleton pieces piece ih =>
      rw [List.foldl_append, List.flatten_append, List.flatten_singleton]
      exact (ih.receive piece).trans (alike_receive _ _)
  exact ⟨halike.bodies, halike.fault, halike.rest⟩

/-- A frame that is cut inside a line end and inside its body, and a byte behind it. -/
theorem foldl_receive_cut :
    let received := [Bytes.ofString "Content-Length: 2\r", Bytes.ofString "\n\r\na",
      Bytes.ofString "bC"].foldl Contents.receive {}
    received.fault = none ∧ received.bodies = [Bytes.ofString "ab"] ∧
      received.rest = Bytes.ofString "C" := by
  intro received
  obtain ⟨hbodies, hfault, hrest⟩ := foldl_receive
    [Bytes.ofString "Content-Length: 2\r", Bytes.ofString "\n\r\na", Bytes.ofString "bC"]
  have hframe : decode [Bytes.ofString "Content-Length: 2\r", Bytes.ofString "\n\r\na",
      Bytes.ofString "bC"].flatten = .ok (some (Bytes.ofString "ab", Bytes.ofString "C")) := by
    decide +kernel
  have hbehind : decode (Bytes.ofString "C") = .ok none := by decide +kernel
  rw [decodeAll_of_some hframe, decodeAll_of_none hbehind] at hbodies hfault hrest
  have hnone : received.fault = none := Option.map_eq_none_iff.1 hfault
  exact ⟨hnone, hbodies, hrest hnone⟩

end TextEditor.Server.Frame
