import CommandWire.Proofs.Sink.Delivery
import CommandWire.Stream

/-! What a stream offers to its sink, one call after another.

    The number of calls and how much each of them offers are up to the sink, which answers as it
    likes; but an offer is always all that the sink does not have, and no more:

        offer 1   ├──────────────── data ─────────────────┤
        offer 2   ├─ taken ─┼─────────────────────────────┤
        offer 3   ├─────── taken ───────┼─────────────────┤
                                        └─ so many bytes does a failure name

    Hence a delivery is over after no more calls than there are bytes, and if it fails, what was
    taken and the number in the failure add up to the data. -/

namespace CommandWire

/-- Which answers to an offer of so many bytes are failures, and which failures. -/
theorem Response.failure?_eq_some_iff {r : Response} {left : Nat} {why : Failure} :
    r.failure? left = some why ↔
      r = .blocks ∧ why = .blocked left ∨
      (r = .takes 0 ∨ ∃ below, r = .refuses below) ∧ why = .refused left ∨
      ∃ f, r = .raises f ∧ why = .fault f := by
  cases r with
  | takes n => cases n <;> simp [failure?, eq_comm]
  | takesAll | refuses | blocks | raises => simp [failure?, eq_comm]

/-- As many bytes are left as were not taken. -/
theorem Sink.StopsAt.length_rest {k : Sink} {data taken rest : Bytes} {before : List Bytes}
    {why : Failure} (h : k.StopsAt data before taken rest why) :
    rest.length = data.length - taken.length := by
  rw [h.split, List.length_append, Nat.add_sub_cancel_left]

namespace Stream

/-- Whatever the sink does, handing bytes to it is a run of offers that changes nothing else of the
    stream. There are no more offers than bytes, each is one call, and each offers all of the bytes
    that were not taken before. In the end the sink has all of the bytes; or it has a first part of
    them that is not all, and the answer to the last offer, which was all of the others, is the
    failure. If the sink would have to wait or took nothing, the failure says how many these are. -/
theorem deliver_offers_rest (s : Stream) (data : Bytes) :
    let t := (s.deliver data).1
    let why := (s.deliver data).2
    ∃ offers : List Bytes,
      t = { s with sink := s.sink.offerAll offers } ∧
      t.sink.calls.length = s.sink.calls.length + offers.length ∧
      offers.length ≤ data.length ∧
      (∀ (i : Nat) (offer : Bytes), offers[i]? = some offer → ∃ taken, data = taken ++ offer ∧
        (s.sink.offerAll (offers.take i)).content = s.sink.content ++ taken) ∧
      (why = none ∧ t.sink.content = s.sink.content ++ data ∨
        ∃ taken rest failure, why = some failure ∧ data = taken ++ rest ∧ rest ≠ [] ∧
          t.sink.content = s.sink.content ++ taken ∧ offers.getLast? = some rest ∧
          let answer := (s.sink.offerAll offers.dropLast).response
          let left := Decimal.text (data.length - taken.length : Nat)
          (answer = .blocks ∧
              failure = .blocked (data.length - taken.length) ∧
              failure.message = "sink would block with " ++ left ++ " bytes unwritten" ∨
            (answer = .takes 0 ∨ ∃ below, answer = .refuses below) ∧
              failure = .refused (data.length - taken.length) ∧
              failure.message = "sink accepted no data, " ++ left ++ " bytes unwritten" ∨
            ∃ f, answer = .raises f ∧ failure = .fault f)) := by
  intro t why
  obtain ⟨offers, hoffered⟩ := s.sink.exists_offered data
  obtain ⟨calls, hcalls, hlength, -⟩ := Sink.calls_offerAll s.sink offers
  have hsink : t.sink = s.sink.offerAll offers := hoffered.state
  refine ⟨offers, ?_, ?_, hoffered.few, hoffered.rest, ?_⟩
  · rw [← hsink]
    rfl
  · rw [hsink, hcalls, List.length_append, hlength]
  · have hends : s.sink.Ends data offers why := hoffered.ends
    clear_value why
    rw [hsink]
    cases hends with
    | all content => exact .inl ⟨rfl, content⟩
    | @stops before taken rest failure stop =>
      refine .inr ⟨taken, rest, failure, rfl, stop.split, stop.left, stop.content, by simp, ?_⟩
      intro answer left
      have hanswer : answer.failure? (data.length - taken.length) = some failure := by
        rw [← stop.length_rest, ← stop.answer]
        simp [answer]
      rcases Response.failure?_eq_some_iff.mp hanswer with ⟨hr, rfl⟩ | ⟨hr, rfl⟩ | hraised
      · exact .inl ⟨hr, rfl, rfl⟩
      · exact .inr (.inl ⟨hr, rfl, rfl⟩)
      · exact .inr (.inr hraised)

/-- One byte is taken of the three, and then the sink would have to wait for the other two. -/
example : ((ofSink .default (.ofScript [.takes 1, .blocks] [])).deliver [1, 2, 3]).2 =
    some (.blocked 2) := by decide +kernel

end Stream
end CommandWire
