import CommandWire.Sink

/-! Handing bytes to a sink that cannot be relied upon.

    How much of an offer is taken, and what is said about it, is up to the sink. All that a delivery
    goes by is the report, which may be too high:

        data   ├── taken before ──┼── taken now ──┼── left ──┤
                                  └──────── offered ─────────┘

    A report above zero cuts off just what was taken, so the next offer is again all that the sink
    does not have, and is shorter than the one before. So a delivery is a run of offers, of which
    there are no more than bytes; and however the sink answers, it ends up with all of the bytes and
    no failure, or with a first part of them that is not all and a failure. Nothing is skipped and
    nothing is taken twice within one delivery. A sink that takes something of every offer never
    fails. -/

namespace CommandWire

namespace Response

/-- A report above zero says what was taken, also if it is too high. -/
theorem taken_eq_take {r : Response} {data : Bytes} {n : Int} (h : r.reply data = .count n)
    (hn : 0 < n) : r.taken data = data.take n.toNat := by
  cases r with
  | takes m =>
    obtain rfl : ((min m data.length : Nat) : Int) = n := by simpa [reply] using h
    rw [taken, Int.toNat_natCast, List.take_eq_take_min]
  | takesAll excess =>
    obtain rfl : ((data.length + excess : Nat) : Int) = n := Reply.count.inj h
    rw [taken, Int.toNat_natCast, List.take_of_length_le (Nat.le_add_right _ _)]
  | refuses below =>
    have hle : n = -below := (Reply.count.inj h).symm
    omega
  | blocks => cases h
  | raises f => cases h

/-- Whatever answer ends a delivery, nothing was taken of the offer that it answers. -/
theorem taken_eq_nil {r : Response} {data : Bytes} (hdata : data ≠ [])
    (h : ∀ n, r.reply data = .count n → n ≤ 0) : r.taken data = [] := by
  have hlen := List.length_pos_iff.mpr hdata
  cases r with
  | takes m =>
    have hle := h _ rfl
    obtain rfl : m = 0 := by omega
    exact List.take_zero (l := data)
  | takesAll excess =>
    have hle := h _ rfl
    omega
  | refuses below => rfl
  | blocks => rfl
  | raises f => rfl

/-- Whether a response takes something of every offer that is not empty. -/
def accepts : Response → Bool
  | .takes n => 1 ≤ n
  | .takesAll _ => true
  | _ => false

theorem reply_of_accepts {r : Response} {data : Bytes} (h : r.accepts = true) (hdata : data ≠ []) :
    ∃ n, r.reply data = .count n ∧ 0 < n := by
  have hlen := List.length_pos_iff.mpr hdata
  cases r with
  | takes m =>
    have hm : 1 ≤ m := of_decide_eq_true h
    exact ⟨_, rfl, by omega⟩
  | takesAll excess => exact ⟨_, rfl, by omega⟩
  | refuses | blocks | raises => cases h

section Failing

/-- The failure that a response to an offer of so many bytes amounts to, if it amounts to one. -/
def failure? : Response → Nat → Option Failure
  | .takes 0, left => some (.refused left)
  | .refuses _, left => some (.refused left)
  | .blocks, left => some (.blocked left)
  | .raises f, _ => some (.fault f)
  | _, _ => none

variable {r : Response} {data : Bytes}

theorem failure?_of_wouldBlock (h : r.reply data = .wouldBlock) :
    r.failure? data.length = some (.blocked data.length) := by
  cases r with
  | blocks => rfl
  | takes | takesAll | refuses | raises => cases h

theorem failure?_of_raised {f : Fault} (h : r.reply data = .raised f) :
    r.failure? data.length = some (.fault f) := by
  cases r with
  | raises g =>
    cases h
    rfl
  | takes | takesAll | refuses | blocks => cases h

theorem failure?_of_count {n : Int} (hdata : data ≠ []) (h : r.reply data = .count n)
    (hn : n ≤ 0) : r.failure? data.length = some (.refused data.length) := by
  have hlen := List.length_pos_iff.mpr hdata
  cases r with
  | takes m =>
    obtain rfl : ((min m data.length : Nat) : Int) = n := Reply.count.inj h
    obtain rfl : m = 0 := by omega
    rfl
  | takesAll excess =>
    obtain rfl : ((data.length + excess : Nat) : Int) = n := Reply.count.inj h
    omega
  | refuses below => rfl
  | blocks | raises => cases h

end Failing

end Response

namespace Sink

/-- A sink before its first call. -/
def ofScript (responses : List Response) (flushes : List (Option Fault)) : Sink :=
  ⟨responses, flushes, []⟩

/-! ### Offers -/

section Offers

/-- A sink after offers one behind another. -/
def offerAll (k : Sink) (offers : List Bytes) : Sink := offers.foldl afterOffer k

variable {k : Sink} {data : Bytes} {offers : List Bytes}

@[simp] theorem offerAll_cons (k : Sink) (data : Bytes) (offers : List Bytes) :
    k.offerAll (data :: offers) = (k.afterOffer data).offerAll offers := rfl

theorem offerAll_concat (k : Sink) (offers : List Bytes) (data : Bytes) :
    k.offerAll (offers ++ [data]) = (k.offerAll offers).afterOffer data :=
  List.foldl_append

/-- Every offer is one call, and no call asks the sink to pass anything on. -/
theorem calls_offerAll (k : Sink) (offers : List Bytes) :
    ∃ calls, (k.offerAll offers).calls = k.calls ++ calls ∧ calls.length = offers.length ∧
      Call.flush ∉ calls := by
  induction offers generalizing k with
  | nil => exact ⟨[], (List.append_nil _).symm, rfl, List.not_mem_nil⟩
  | cons data offers ih =>
    obtain ⟨calls, hcalls, hlength, hflush⟩ := ih (k.afterOffer data)
    refine ⟨.write data.length (k.response.taken data) :: calls, ?_, ?_, by simpa using hflush⟩
    · rw [offerAll_cons, hcalls]
      exact List.append_assoc _ [_] _
    · rw [List.length_cons, List.length_cons, hlength]

/-- Every offer is all of the data that the sink did not take before. -/
def OffersRest (k : Sink) (data : Bytes) (offers : List Bytes) : Prop :=
  ∀ (i : Nat) (offer : Bytes), offers[i]? = some offer →
    ∃ taken, data = taken ++ offer ∧ (k.offerAll (offers.take i)).content = k.content ++ taken

theorem offersRest_nil (k : Sink) (data : Bytes) : k.OffersRest data [] := by
  intro i offer h
  cases h

/-- The first offer is all of the data, and the others are about what was not taken of it. -/
theorem OffersRest.cons {n : Nat}
    (htaken : (k.afterOffer data).content = k.content ++ data.take n)
    (h : (k.afterOffer data).OffersRest (data.drop n) offers) :
    k.OffersRest data (data :: offers) := by
  intro i offer hoffer
  cases i with
  | zero =>
    obtain rfl : data = offer := Option.some.inj hoffer
    exact ⟨[], rfl, (List.append_nil _).symm⟩
  | succ i =>
    obtain ⟨taken, hsplit, hcontent⟩ := h i offer hoffer
    refine ⟨data.take n ++ taken, ?_, ?_⟩
    · rw [List.append_assoc, ← hsplit, List.take_append_drop]
    · rw [List.take_succ_cons, offerAll_cons, hcontent, htaken, List.append_assoc]

/-- The last of the offers is what the sink does not have of the data, and its answer to that is
    the failure. -/
structure StopsAt (k : Sink) (data : Bytes) (before : List Bytes) (taken rest : Bytes)
    (why : Failure) : Prop where
  split : data = taken ++ rest
  left : rest ≠ []
  content : (k.offerAll (before ++ [rest])).content = k.content ++ taken
  answer : (k.offerAll before).response.failure? rest.length = some why

/-- How offers come to their end: all of the data is taken, or the last offer fails. -/
inductive Ends (k : Sink) (data : Bytes) : List Bytes → Option Failure → Prop where
  | all {offers : List Bytes} (content : (k.offerAll offers).content = k.content ++ data) :
      Ends k data offers none
  | stops {before : List Bytes} {taken rest : Bytes} {why : Failure}
      (stop : k.StopsAt data before taken rest why) : Ends k data (before ++ [rest]) (some why)

theorem Ends.cons {n : Nat} {why : Option Failure}
    (htaken : (k.afterOffer data).content = k.content ++ data.take n)
    (h : (k.afterOffer data).Ends (data.drop n) offers why) : k.Ends data (data :: offers) why := by
  cases h with
  | all content =>
    refine .all ?_
    rw [offerAll_cons, content, htaken, List.append_assoc, List.take_append_drop]
  | @stops before taken rest why stop =>
    have hstop : k.StopsAt data (data :: before) (data.take n ++ taken) rest why := by
      refine ⟨?_, stop.left, ?_, stop.answer⟩
      · rw [List.append_assoc, ← stop.split, List.take_append_drop]
      · rw [List.cons_append, offerAll_cons, stop.content, htaken, List.append_assoc]
    exact .stops hstop

/-- What the offers of a delivery are, and how they come to their end. -/
structure Offered (k : Sink) (data : Bytes) (result : Attempt Sink) (offers : List Bytes) :
    Prop where
  state : result.1 = k.offerAll offers
  few : offers.length ≤ data.length
  rest : k.OffersRest data offers
  ends : k.Ends data offers result.2

/-- An offer that fails is the last one, and nothing was taken of it. -/
theorem offered_of_failure {why : Failure} (hdata : data ≠ [])
    (hnone : ∀ n, k.response.reply data = .count n → n ≤ 0)
    (hwhy : k.response.failure? data.length = some why) :
    Offered k data (k.afterOffer data, some why) [data] := by
  have htaken : (k.afterOffer data).content = k.content ++ [] := by
    rw [content_afterOffer, Response.taken_eq_nil hdata hnone]
  have hstop : k.StopsAt data [] [] data why :=
    ⟨(List.nil_append data).symm, hdata, htaken, hwhy⟩
  exact {
    state := rfl
    few := List.length_pos_iff.mpr hdata
    rest := OffersRest.cons (n := 0) htaken (offersRest_nil _ _)
    ends := .stops hstop }

/-- A delivery is a run of offers. -/
theorem exists_offered (k : Sink) (data : Bytes) :
    ∃ offers, Offered k data (k.deliver data) offers := by
  fun_induction deliver k data with
  | case1 k => exact ⟨[], rfl, Nat.le_refl _, offersRest_nil k [], .all (List.append_nil _).symm⟩
  | case2 k data hdata next hreply =>
    exact ⟨_, offered_of_failure hdata (by simp [hreply]) (Response.failure?_of_wouldBlock hreply)⟩
  | case3 k data hdata next f hreply =>
    exact ⟨_, offered_of_failure hdata (by simp [hreply]) (Response.failure?_of_raised hreply)⟩
  | case4 k data hdata next n hreply hn =>
    exact ⟨_, offered_of_failure hdata (by simpa [hreply] using hn)
      (Response.failure?_of_count hdata hreply hn)⟩
  | case5 k data hdata next n hreply hn ih =>
    obtain ⟨offers, ih⟩ := ih
    have htaken : next.content = k.content ++ data.take n.toNat := by
      rw [content_afterOffer, Response.taken_eq_take hreply (by omega)]
    have hlen := List.length_pos_iff.mpr hdata
    have hfew := ih.few
    rw [List.length_drop] at hfew
    refine ⟨data :: offers, ih.state, ?_, ih.rest.cons htaken, ih.ends.cons htaken⟩
    rw [List.length_cons]
    omega

end Offers

/-! ### What a delivery comes to -/

/-- What a delivery can come to: all bytes are taken, or a first part is and it fails. -/
inductive Delivery (k : Sink) (data : Bytes) : Attempt Sink → Prop where
  | all {k' : Sink} (content : k'.content = k.content ++ data) : Delivery k data (k', none)
  | part {k' : Sink} {why : Failure} {taken rest : Bytes} (split : data = taken ++ rest)
      (left : rest ≠ []) (content : k'.content = k.content ++ taken) :
      Delivery k data (k', some why)

theorem delivery_deliver (k : Sink) (data : Bytes) : Delivery k data (k.deliver data) := by
  obtain ⟨offers, hoffered⟩ := exists_offered k data
  obtain ⟨hstate, -, -, hends⟩ := hoffered
  generalize k.deliver data = result at hstate hends
  obtain ⟨t, why⟩ := result
  obtain rfl : t = k.offerAll offers := hstate
  cases hends with
  | all content => exact .all content
  | stops stop => exact .part stop.split stop.left stop.content

/-- A delivery only offers bytes; it never asks the sink to pass anything on. -/
theorem calls_deliver (k : Sink) (data : Bytes) :
    ∃ offers, (k.deliver data).1.calls = k.calls ++ offers ∧ Call.flush ∉ offers := by
  obtain ⟨offers, hoffered⟩ := exists_offered k data
  obtain ⟨calls, hcalls, -, hflush⟩ := calls_offerAll k offers
  exact ⟨calls, by rw [hoffered.state, hcalls], hflush⟩

/-! ### Where a delivery stops -/

/-- A sink that has just these bytes took nothing of the last offer, of some more bytes, and its
    answer to that offer was the failure. -/
structure StoppedAt (k : Sink) (content rest : Bytes) (why : Failure) : Prop where
  left : rest ≠ []
  content : k.content = content
  offer : ∃ u : Sink, k = u.afterOffer rest ∧ u.response.failure? rest.length = some why

/-- A delivery that fails stops at an offer of all that the sink did not take before. -/
theorem stoppedAt_of_deliver {k t : Sink} {data : Bytes} {why : Failure}
    (h : k.deliver data = (t, some why)) :
    ∃ taken rest, data = taken ++ rest ∧ t.StoppedAt (k.content ++ taken) rest why := by
  obtain ⟨offers, hoffered⟩ := exists_offered k data
  rw [h] at hoffered
  obtain ⟨hstate, -, -, hends⟩ := hoffered
  obtain rfl : t = k.offerAll offers := hstate
  cases hends with
  | @stops before taken rest _ stop =>
    refine ⟨taken, rest, stop.split, stop.left, stop.content, k.offerAll before, ?_, stop.answer⟩
    exact offerAll_concat k before rest

/-! ### Sinks that always take something -/

/-- A sink that takes something of every offer, and whose flushes succeed. -/
structure Healthy (k : Sink) : Prop where
  responses : ∀ r ∈ k.responses, r.accepts = true
  flushes : ∀ f ∈ k.flushes, f = none

/-- A sink in memory has nothing to refuse with. -/
theorem healthy_memory : memory.Healthy := ⟨by simp [memory], by simp [memory]⟩

namespace Healthy

variable {k : Sink}

theorem response (h : k.Healthy) : k.response.accepts = true := by
  cases hr : k.responses with
  | nil => rw [Sink.response, hr]; rfl
  | cons r rs => rw [Sink.response, hr]; exact h.responses r (by simp [hr])

theorem afterOffer (h : k.Healthy) (data : Bytes) : (k.afterOffer data).Healthy :=
  ⟨fun r hr => h.responses r (List.mem_of_mem_tail hr), h.flushes⟩

/-- Whatever a healthy sink says about an offer that is not empty, it took something. -/
theorem reply (h : k.Healthy) {data : Bytes} {said : Reply} (hdata : data ≠ [])
    (hsaid : k.response.reply data = said) : ∃ n, said = .count n ∧ 0 < n := by
  rw [← hsaid]
  exact Response.reply_of_accepts h.response hdata

theorem deliver (h : k.Healthy) (data : Bytes) :
    (k.deliver data).2 = none ∧ (k.deliver data).1.Healthy := by
  fun_induction Sink.deliver k data with
  | case1 k => exact ⟨rfl, h⟩
  | case2 k data hdata next hreply =>
    obtain ⟨n, hn, -⟩ := h.reply hdata hreply
    cases hn
  | case3 k data hdata next f hreply =>
    obtain ⟨n, hn, -⟩ := h.reply hdata hreply
    cases hn
  | case4 k data hdata next n hreply hle =>
    obtain ⟨m, hm, hpos⟩ := h.reply hdata hreply
    obtain rfl := Reply.count.inj hm
    omega
  | case5 k data hdata next n hreply hn ih => exact ih (h.afterOffer data)

theorem flush (h : k.Healthy) : k.flush.2 = none ∧ k.flush.1.Healthy := by
  have hhead : k.flushes.head?.getD none = none := by
    cases hf : k.flushes with
    | nil => rfl
    | cons f fs => exact h.flushes f (by simp [hf])
  refine ⟨by rw [Sink.flush, hhead]; rfl, h.responses, ?_⟩
  exact fun f hf => h.flushes f (List.mem_of_mem_tail hf)

end Healthy

end Sink
end CommandWire
