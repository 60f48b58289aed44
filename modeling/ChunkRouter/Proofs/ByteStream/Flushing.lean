import ChunkRouter.Proofs.Frame.RoundTrip

/-!
# Flushing onto a stream

A flush hands a stream what its writer holds, as much at a time as the stream takes. However the stream
answers, the bytes it has taken and those still held are the frames of the completed chunks; a flush
that goes well leaves nothing held.
-/

namespace ChunkRouter.ByteStream

open ChunkRouter.Frame (Traffic)

/-! ## What a stream has taken -/

/-- The bytes that were taken in a call. -/
def Call.taken : Call → Bytes
  | .wrote bytes _ => bytes
  | _ => []

namespace Script

variable {s s' : Script} {bytes : Bytes} {n : Nat}

theorem accepted_eq (s : Script) : s.accepted = s.calls.reverse.flatMap Call.taken := by
  unfold accepted
  congr 1

theorem accepted_record (s : Script) (c : Call) : (s.record c).accepted = s.accepted ++ c.taken := by
  rw [accepted_eq, accepted_eq, record, List.reverse_cons, List.flatMap_append]
  simp

theorem writeTurns_le {turns later : List WriteTurn} (h : writeTurns turns bytes = (.ok n, later)) :
    n ≤ bytes.length := by
  fun_induction writeTurns turns bytes with
  | case1 => cases h; exact Nat.le_refl _
  | case2 turns bytes ih => exact ih h
  | case3 => cases h
  | case4 => cases h; exact Nat.min_le_right _ _

/-- A stream takes a front of what it is offered. -/
theorem accepted_write (h : s.write bytes = (s', .ok n)) :
    n ≤ bytes.length ∧ s'.accepted = s.accepted ++ bytes.take n := by
  unfold write at h
  split at h
  · cases h
  · rename_i hturns
    cases h
    exact ⟨writeTurns_le hturns, accepted_record _ _⟩

theorem accepted_write_error {e : IoError} (h : s.write bytes = (s', .error e)) :
    s'.accepted = s.accepted := by
  unfold write at h
  split at h
  · cases h
    rfl
  · cases h

/-- Asking again does not take any bytes. -/
theorem taken_turns {c : Call} (hc : c.taken = []) (later : List Turn) (calls : List Call) :
    (turns c later calls).2.2.reverse.flatMap Call.taken = calls.reverse.flatMap Call.taken := by
  have hone : ∀ calls : List Call,
      (c :: calls).reverse.flatMap Call.taken = calls.reverse.flatMap Call.taken := by
    intro calls
    rw [List.reverse_cons, List.flatMap_append, List.flatMap_cons, hc]
    exact List.append_nil _
  fun_induction turns c later calls with
  | case1 calls => exact hone calls
  | case2 later calls ih => exact ih.trans (hone calls)
  | case3 kind later calls => exact hone calls

theorem accepted_flush (s : Script) : s.flush.1.accepted = s.accepted := by
  rw [accepted_eq, accepted_eq]
  exact taken_turns rfl s.flushes s.calls

end Script

/-! ## Flushing -/

namespace Outlet

variable {o : Outlet} {completed : List Bytes}

/-- What a stream takes of the fragment in flight is no more than there is. -/
theorem advance_ne_error {w v : Frame.Writer} {front : Frame.Fragment} {ready : List Frame.Fragment}
    {s s' : Script} {n : Nat} {e : Frame.FramingError} (hready : w.ready = front :: ready)
    (hwrite : s.write front.unsent = (s', .ok n)) : w.advance n ≠ (v, .error e) := by
  rw [Frame.Writer.advance_eq hready (Script.accepted_write hwrite).1]
  intro hrefused
  cases congrArg Prod.snd hrefused

/-- **A flush neither loses nor repeats a byte**, and holds nothing back when it goes well. -/
theorem flushLoop_balanced
    (h : Traffic.Balanced ⟨o.writer, o.stream.accepted, completed⟩) (finished : Nat) :
    Traffic.Balanced ⟨(o.flushLoop finished).1.writer, (o.flushLoop finished).1.stream.accepted,
        completed⟩ ∧
      (o.flushLoop finished).1.writer.staged = o.writer.staged ∧
      (o.flushLoop finished).1.writer.limits = o.writer.limits ∧
      ∀ n, (o.flushLoop finished).2 = .ok n → (o.flushLoop finished).1.writer.ready = [] := by
  fun_induction flushLoop o finished with
  | case1 o finished hready stream e hflush =>
    have hsame := Script.accepted_flush o.stream
    rw [hflush] at hsame
    exact ⟨hsame ▸ h, rfl, rfl, fun n hn => nomatch hn⟩
  | case2 o finished hready stream hflush =>
    have hsame := Script.accepted_flush o.stream
    rw [hflush] at hsame
    exact ⟨hsame ▸ h, rfl, rfl, fun _ _ => hready⟩
  | case3 o finished front ready hready stream e hwrite =>
    have hsame := Script.accepted_write_error hwrite
    exact ⟨hsame ▸ h, rfl, rfl, fun n hn => nomatch hn⟩
  | case4 o finished front ready hready stream hwrite =>
    obtain ⟨-, hsame⟩ := Script.accepted_write hwrite
    rw [List.take_zero, List.append_nil] at hsame
    exact ⟨hsame ▸ h, rfl, rfl, fun n hn => nomatch hn⟩
  | case5 o finished front ready hready stream n hwrite hn w e hrefused =>
    exact absurd hrefused (advance_ne_error hready hwrite)
  | case6 o finished front ready hready stream n hwrite hn w hadvance ih =>
    obtain ⟨hfits, htaken⟩ := Script.accepted_write hwrite
    have hcurrent : o.writer.current? = some front.unsent := by
      rw [Frame.Writer.current?, hready]
      rfl
    obtain ⟨hadvanced, hstaged, hlimits, -⟩ := h.advance_of_current hcurrent hfits
    rw [← htaken] at hadvanced
    rw [hadvance] at hadvanced hstaged hlimits
    obtain ⟨hbalanced, hstaged', hlimits', hready'⟩ := ih hadvanced
    exact ⟨hbalanced, hstaged'.trans hstaged, hlimits'.trans hlimits, hready'⟩

end Outlet

end ChunkRouter.ByteStream
