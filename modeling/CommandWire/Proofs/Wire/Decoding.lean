import CommandWire.Proofs.Number.Decimal
import CommandWire.Wire.Encode
import CommandWire.Wire.Read

/-! Requests on the wire can be told apart, whatever bytes their arguments hold.

    Each stage of the reader accepts exactly what the same stage of the writer produces, in front of
    any bytes at all; the equivalences go up the grammar, each citing only the one below.

        count ──▶ bulk ──▶ bulks ──▶ frame ──▶ pipeline

    A length in front of every argument makes this work: the reader never looks for the end of an
    argument, so a CRLF or a mark inside one means nothing. -/

namespace CommandWire

/-- The bytes of a request's arguments, the command's first. -/
def Request.raws (r : Request) : List Bytes := r.arguments.map Argument.raw

/-- A request whose arguments have just these bytes. -/
def Request.ofRaws (command : Bytes) (params : List Bytes) : Request :=
  ⟨.blob command, params.map .blob⟩

@[simp] theorem Request.raws_ofRaws (command : Bytes) (params : List Bytes) :
    (ofRaws command params).raws = command :: params := by
  have hraw : Argument.raw ∘ Argument.blob = id := rfl
  rw [raws, ofRaws, arguments, List.map_cons, List.map_map, hraw, List.map_id]
  rfl

namespace Wire

/-- A request on the wire, given by the bytes of its arguments. -/
def frame (raws : List Bytes) : Bytes := header raws.length ++ raws.flatMap bulk

theorem encode_eq_frame (r : Request) : encode r = frame r.raws := by
  rw [encode_eq, frame, Request.raws, List.length_map, Request.length_arguments, List.flatMap_map]

/-! ### Lines and lengths -/

theorem readCrlf_eq_some_iff {s rest : Bytes} : readCrlf s = some rest ↔ s = crlf ++ rest := by
  unfold readCrlf crlf
  split
  · next t => simp
  · next hne =>
    refine ⟨fun h => absurd h (by simp), ?_⟩
    rintro rfl
    exact absurd rfl (hne rest)

theorem takeExact_eq_some_iff {n : Nat} {s raw rest : Bytes} :
    takeExact n s = some (raw, rest) ↔ raw.length = n ∧ s = raw ++ rest := by
  unfold takeExact
  constructor
  · intro h
    split at h
    · next hle =>
      obtain ⟨rfl, rfl⟩ := Prod.mk.inj (Option.some.inj h)
      exact ⟨List.length_take_of_le hle, (List.take_append_drop n s).symm⟩
    · exact absurd h (by simp)
  · rintro ⟨rfl, rfl⟩
    rw [if_pos (by simp), List.take_left, List.drop_left]

/-- No digit ends a line. -/
theorem ne_cr_of_mem_natBytes {n : Nat} {b : UInt8} (h : b ∈ Decimal.natBytes n) : b ≠ 13 := by
  rintro rfl
  have hdigit := (Decimal.isDigit_of_mem_natBytes h).1
  have h13 : (13 : UInt8).toNat = 13 := rfl
  omega

theorem readCount_natBytes (mark : UInt8) (n : Nat) (rest : Bytes) :
    readCount mark (mark :: (Decimal.natBytes n ++ (crlf ++ rest))) = some (n, rest) := by
  have hdigits : ∀ b ∈ Decimal.natBytes n, decide (b ≠ 13) = true := fun b hb =>
    decide_eq_true (ne_cr_of_mem_natBytes hb)
  have htake : (Decimal.natBytes n ++ (crlf ++ rest)).takeWhile (· ≠ 13) = Decimal.natBytes n := by
    rw [List.takeWhile_append_of_pos hdigits]
    simp [crlf]
  have hdrop : (Decimal.natBytes n ++ (crlf ++ rest)).dropWhile (· ≠ 13) = crlf ++ rest := by
    rw [List.dropWhile_append_of_pos hdigits]
    simp [crlf]
  rw [readCount, if_pos rfl, htake, hdrop, Decimal.readNat_natBytes, readCrlf_eq_some_iff.mpr rfl]
  rfl

theorem readCount_eq_some_iff {mark : UInt8} {s rest : Bytes} {n : Nat} :
    readCount mark s = some (n, rest) ↔ s = mark :: (Decimal.natBytes n ++ (crlf ++ rest)) := by
  constructor
  · intro h
    cases s with
    | nil => exact absurd h (by simp [readCount])
    | cons b s =>
      rw [readCount] at h
      split at h
      · next hb =>
        obtain ⟨m, hm, h⟩ := Option.bind_eq_some_iff.mp h
        obtain ⟨t, ht, h⟩ := Option.bind_eq_some_iff.mp h
        obtain ⟨rfl, rfl⟩ := Prod.mk.inj (Option.some.inj h)
        rw [Decimal.readNat_eq_some_iff] at hm
        rw [readCrlf_eq_some_iff] at ht
        rw [hb, ← hm, ← ht, List.takeWhile_append_dropWhile]
      · exact absurd h (by simp)
  · rintro rfl
    exact readCount_natBytes mark n rest

/-! ### Arguments -/

/-- An argument in front of any bytes, in the shape in which the reader takes it apart. -/
theorem bulk_append (raw rest : Bytes) : bulk raw ++ rest =
    bulkMark :: (Decimal.natBytes raw.length ++ (crlf ++ (raw ++ (crlf ++ rest)))) := by
  simp [bulk]

theorem readBulk_bulk (raw rest : Bytes) : readBulk (bulk raw ++ rest) = some (raw, rest) := by
  have htake : takeExact raw.length (raw ++ (crlf ++ rest)) = some (raw, crlf ++ rest) :=
    takeExact_eq_some_iff.mpr ⟨rfl, rfl⟩
  have hcrlf : readCrlf (crlf ++ rest) = some rest := readCrlf_eq_some_iff.mpr rfl
  simp [readBulk, bulk_append, readCount_natBytes, htake, hcrlf]

theorem readBulk_eq_some_iff {s raw rest : Bytes} :
    readBulk s = some (raw, rest) ↔ s = bulk raw ++ rest := by
  constructor
  · intro h
    obtain ⟨⟨n, s₁⟩, hcount, h⟩ := Option.bind_eq_some_iff.mp h
    obtain ⟨⟨raw', s₂⟩, htake, h⟩ := Option.bind_eq_some_iff.mp h
    obtain ⟨s₃, hcrlf, h⟩ := Option.bind_eq_some_iff.mp h
    obtain ⟨rfl, rfl⟩ := Prod.mk.inj (Option.some.inj h)
    obtain ⟨rfl, rfl⟩ := takeExact_eq_some_iff.mp htake
    rw [readCount_eq_some_iff.mp hcount, readCrlf_eq_some_iff.mp hcrlf, bulk_append]
  · rintro rfl
    exact readBulk_bulk raw rest

theorem readBulks_flatMap_bulk (raws : List Bytes) (rest : Bytes) :
    readBulks raws.length (raws.flatMap bulk ++ rest) = some (raws, rest) := by
  induction raws with
  | nil => rfl
  | cons raw raws ih =>
    simp [readBulks, List.append_assoc, readBulk_bulk, ih]

theorem readBulks_eq_some_iff {n : Nat} {s rest : Bytes} {raws : List Bytes} :
    readBulks n s = some (raws, rest) ↔ raws.length = n ∧ s = raws.flatMap bulk ++ rest := by
  constructor
  · intro h
    induction n generalizing s raws with
    | zero =>
      obtain ⟨rfl, rfl⟩ := Prod.mk.inj (Option.some.inj h)
      exact ⟨rfl, rfl⟩
    | succ n ih =>
      obtain ⟨⟨raw, s₁⟩, hbulk, h⟩ := Option.bind_eq_some_iff.mp h
      obtain ⟨⟨others, s₂⟩, hbulks, h⟩ := Option.bind_eq_some_iff.mp h
      obtain ⟨rfl, rfl⟩ := Prod.mk.inj (Option.some.inj h)
      obtain ⟨rfl, rfl⟩ := ih hbulks
      rw [readBulk_eq_some_iff.mp hbulk, List.flatMap_cons, List.append_assoc]
      exact ⟨rfl, rfl⟩
  · rintro ⟨rfl, rfl⟩
    exact readBulks_flatMap_bulk raws rest

/-! ### Requests and pipelines -/

/-- A request in front of any bytes, in the shape in which the reader takes it apart. -/
theorem frame_append (raws : List Bytes) (rest : Bytes) : frame raws ++ rest =
    arrayMark :: (Decimal.natBytes raws.length ++ (crlf ++ (raws.flatMap bulk ++ rest))) := by
  simp [frame, header]

theorem read_frame (raws : List Bytes) (rest : Bytes) :
    read (frame raws ++ rest) = some (raws, rest) := by
  simp [read, frame_append, readCount_natBytes, readBulks_flatMap_bulk]

/-- Exactly the frames are read, each as its arguments. -/
theorem read_eq_some_iff {s rest : Bytes} {raws : List Bytes} :
    read s = some (raws, rest) ↔ s = frame raws ++ rest := by
  constructor
  · intro h
    obtain ⟨⟨n, s₁⟩, hcount, h⟩ := Option.bind_eq_some_iff.mp h
    obtain ⟨rfl, rfl⟩ := readBulks_eq_some_iff.mp h
    rw [readCount_eq_some_iff.mp hcount, frame_append]
  · rintro rfl
    exact read_frame raws rest

theorem readMany_flatMap_frame (requests : List (List Bytes)) (rest : Bytes) :
    readMany requests.length (requests.flatMap frame ++ rest) = some (requests, rest) := by
  induction requests with
  | nil => rfl
  | cons raws requests ih =>
    simp [readMany, List.append_assoc, read_frame, ih]

/-- Two frames in front of any bytes agree only if they are the same frame. -/
theorem frame_append_inj {a b : List Bytes} {s t : Bytes} (h : frame a ++ s = frame b ++ t) :
    a = b ∧ s = t := by
  have hread := read_frame a s
  rw [h, read_frame] at hread
  obtain ⟨rfl, rfl⟩ := Prod.mk.inj (Option.some.inj hread)
  exact ⟨rfl, rfl⟩

/-- Two requests are written alike exactly if their arguments have the same bytes. -/
theorem encode_eq_encode_iff {r q : Request} : encode r = encode q ↔ r.raws = q.raws := by
  rw [encode_eq_frame, encode_eq_frame]
  constructor
  · intro h
    exact (frame_append_inj (s := []) (t := []) (by rw [h])).1
  · intro h
    rw [h]

/-- A pipeline of requests, with any bytes behind it, is read back as the arguments of just those
    requests; no request starts another one; and whatever is read as one request that has a command
    is what some request with these arguments is written as. -/
theorem pipeline_uniquely_decodable :
    (∀ (requests : List Request) (rest : Bytes),
      readMany requests.length (requests.flatMap encode ++ rest) =
        some (requests.map Request.raws, rest)) ∧
    (∀ r q : Request, encode r <+: encode q → encode r = encode q ∧ r.raws = q.raws) ∧
    (∀ (s : Bytes) (raws : List Bytes), read s = some (raws, []) → 1 ≤ raws.length →
      ∃ r : Request, encode r = s ∧ r.raws = raws) := by
  refine ⟨?_, ?_, ?_⟩
  · intro requests rest
    have hpipe : requests.flatMap encode = (requests.map Request.raws).flatMap frame := by
      rw [List.flatMap_map]
      exact List.flatMap_congr fun r _ => encode_eq_frame r
    rw [hpipe, ← List.length_map (f := Request.raws)]
    exact readMany_flatMap_frame (requests.map Request.raws) rest
  · rintro r q ⟨t, ht⟩
    rw [encode_eq_frame, encode_eq_frame] at ht ⊢
    have hq : frame r.raws ++ t = frame q.raws ++ [] := by rw [ht, List.append_nil]
    obtain ⟨hraws, -⟩ := frame_append_inj hq
    rw [hraws]
    exact ⟨rfl, rfl⟩
  · intro s raws hread hlen
    obtain ⟨command, params, rfl⟩ := List.exists_cons_of_ne_nil (List.ne_nil_of_length_pos hlen)
    refine ⟨.ofRaws command params, ?_, Request.raws_ofRaws command params⟩
    rw [encode_eq_frame, Request.raws_ofRaws, read_eq_some_iff.mp hread, List.append_nil]

/-- A command and a blob of the same letters are one request; and a request whose only parameter is
    a line end with the head of another argument behind it (`\r\n$0`) is read as just that. -/
theorem pipeline_uniquely_decodable_get :
    ((⟨.command .get, []⟩ : Request).raws = (⟨.blob [71, 69, 84], []⟩ : Request).raws) ∧
      ∃ r : Request,
        encode r = [42, 50, 13, 10, 36, 51, 13, 10, 71, 69, 84, 13, 10,
          36, 52, 13, 10, 13, 10, 36, 48, 13, 10] ∧
        r.raws = [[71, 69, 84], [13, 10, 36, 48]] := by
  obtain ⟨-, prefix_free, onto⟩ := pipeline_uniquely_decodable
  have hsame : encode ⟨.command .get, []⟩ <+: encode ⟨.blob [71, 69, 84], []⟩ := by decide +kernel
  have hread : read [42, 50, 13, 10, 36, 51, 13, 10, 71, 69, 84, 13, 10,
      36, 52, 13, 10, 13, 10, 36, 48, 13, 10] = some ([[71, 69, 84], [13, 10, 36, 48]], []) := by
    decide +kernel
  exact ⟨(prefix_free _ _ hsame).2, onto _ _ hread (by decide)⟩

end Wire
end CommandWire
