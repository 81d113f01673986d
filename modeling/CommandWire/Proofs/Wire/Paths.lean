import CommandWire.Capture
import CommandWire.Proofs.Stream.Delivery
import CommandWire.Proofs.Wire.Handover

/-! Every way of putting a request on the wire gives the same bytes.

    A request can be read piece by piece, written as a whole, sent through a stream in memory,
    captured as text, or handed to a writer. The stream is the only one of these that regroups the
    pieces: small ones wait together, and large ones pass them by. Nothing of that shows in the end,
    since a sink in memory is one that always takes something.

        read      piece, piece, piece ──────────────────────┐
        capture   pieces ─▶ buffer of 8192 bytes ─▶ memory ─┼─ encode
        hand over pieces ─▶ writer, then one drain ─────────┘ -/

namespace CommandWire

/-! ### A writer without trouble -/

namespace Writer

/-- A writer without trouble accepts every piece on its own, and is drained once behind the last. -/
theorem handOver_request (number : Nat) (r : Request) :
    (ofTrouble none).handOver (.request number r) =
      ([.writing r.command.text r.size],
        ⟨none, (Wire.chunks r).map .accepted ++ [.drained]⟩, none) := by
  have hwrites : (ofTrouble none).writeAll (Wire.chunks r) =
      (⟨none, (Wire.chunks r).map .accepted⟩, none) :=
    writeAll_of_le fun _ _ htrouble => by cases htrouble
  rw [handOver_eq, hwrites]
  rfl

end Writer

/-! ### A capture -/

namespace Capture

theorem bytes_request (number : Nat) (r : Request) :
    (bytes (.request number r)).2 = .ok (Wire.encode r) := by
  have hstart : stream.Delivers [] := ⟨Sink.healthy_memory, rfl, fun _ => rfl⟩
  obtain ⟨hok, hopen, hsent⟩ := hstart.perform rfl (.send (.request number r))
  rw [Stream.perform] at hok hopen hsent
  rw [bytes, bytesWith]
  generalize stream.send (.request number r) = sent at hok hopen hsent
  obtain ⟨s, why⟩ := sent
  obtain rfl : why = none := hok
  rw [Attempt.andThen_none]
  obtain ⟨hflush, hpending, hall⟩ := hsent.flush hopen
  generalize s.flush = flushed at hflush hpending hall
  obtain ⟨t, why⟩ := flushed
  obtain rfl : why = none := hflush
  have hcontent := hall.all
  rw [hpending, List.append_nil] at hcontent
  exact congrArg Except.ok hcontent

/-! ### Bytes as characters -/

theorem toNat_ofNat_byte (b : UInt8) : (Char.ofNat b.toNat).toNat = b.toNat := by
  have hb := b.toNat_lt
  have hvalid : b.toNat.isValidChar := .inl (by omega)
  rw [Char.ofNat, dif_pos hvalid]
  rfl

/-- The code points of a captured text are the captured bytes. -/
theorem toNat_latinText (data : Bytes) :
    (latinText data).toList.map Char.toNat = data.map UInt8.toNat := by
  rw [latinText, String.toList_ofList, Quoted.latin, List.map_map]
  exact List.map_congr_left fun b _ => toNat_ofNat_byte b

end Capture

/-! ### All ways together -/

namespace Wire

/-- Read piece by piece and joined, captured as bytes, captured as text and taken back to bytes, or
    handed to a writer without trouble, a request of any size is the same bytes; no capture fails;
    and a captured text has just one character per byte, none of them past the first 256. -/
theorem paths_give_encode (number : Nat) (r : Request) :
    (Cursor.chunks.exhaust r).flatten = encode r ∧
      (Capture.bytes (.request number r)).2 = .ok (encode r) ∧
      (∃ log w, (Writer.ofTrouble none).handOver (.request number r) = (log, w, none) ∧
        w.accepted = Cursor.chunks.exhaust r ∧ w.drains = 1 ∧ w.accepted.flatten = encode r) ∧
      ∃ text, (Capture.bytes (.request number r)).2.map Capture.latinText = .ok text ∧
        text.toList.map (fun c => UInt8.ofNat c.toNat) = encode r ∧
        text.length = (encode r).length ∧ ∀ c ∈ text.toList, c.toNat ≤ 255 := by
  have hpieces : Cursor.chunks.exhaust r = chunks r := Cursor.exhaust_chunks r
  have hpoints := Capture.toNat_latinText (encode r)
  refine ⟨by rw [hpieces, encode], Capture.bytes_request number r, ?_, ?_⟩
  · have haccepted :
        (⟨none, (chunks r).map .accepted ++ [.drained]⟩ : Writer).accepted = chunks r :=
      Writer.accepted_of_last rfl none (chunks r)
    refine ⟨_, _, Writer.handOver_request number r, haccepted.trans hpieces.symm,
      Writer.drains_of_last .drained none (chunks r), ?_⟩
    rw [haccepted, encode]
  · refine ⟨Capture.latinText (encode r), by rw [Capture.bytes_request]; rfl, ?_, ?_, ?_⟩
    · have hback := congrArg (List.map UInt8.ofNat) hpoints
      simpa [List.map_map, Function.comp_def] using hback
    · have hlength := congrArg List.length hpoints
      simpa [String.length_toList] using hlength
    · rintro c hc
      have hmem : c.toNat ∈ (encode r).map UInt8.toNat := by
        rw [← hpoints]
        exact List.mem_map_of_mem hc
      obtain ⟨b, -, hb⟩ := List.mem_map.mp hmem
      have hlt := b.toNat_lt
      omega

end Wire
end CommandWire
