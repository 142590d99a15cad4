import Voxeltoad.Proxy.Dispatcher

/-!
# Relaying a stream

The loop of `streamChatCompletions` (`internal/proxy/stream.go`): chunks are received, the usage
they report is remembered, and they are written to the client until the upstream ends, fails, or
the client is gone.

The encoder and the connection to the client are one oracle, `delivers prev chunk`: whether `chunk`
was encoded and written, when `prev` were relayed before it.

`relay` is the loop.  `relay_eq` says what it comes to in terms of what the reader returns: the
usage that counts is the last one among the chunks that were taken, and the outcome is uncertain
when the loop got as far as an error of `Recv`.
-/

set_option autoImplicit false

namespace Voxeltoad

/-- What the loop keeps. -/
structure Relay where
  pc : PluginContext
  lastUsage : Option Usage
  relayed : List Chunk
  deriving DecidableEq, Repr

variable (json : Json) (delivers : List Chunk → Chunk → Bool)

/-- **The loop of `streamChatCompletions`.** -/
def relay (r : StreamReader) (s : Relay) : Relay :=
  match h : r.recv json with
  | (.error .eof, _) => s
  | (.error .failed, _) => { s with pc := { s.pc with billingUncertain := true } }
  | (.ok chunk, r') =>
    let s' : Relay := ⟨s.pc, chunk.usage.or s.lastUsage, s.relayed ++ [chunk]⟩
    -- A client that went away does not make the charge uncertain: the usage received so far
    -- still governs the settlement.
    if delivers s.relayed chunk then
      have : r'.dec.size < r.dec.size := StreamReader.size_recv_lt h
      relay r' s'
    else s'
termination_by r.dec.size

/-! ## What a reader returns -/

/-- The chunks that `Recv` returns, and the error it ends with. -/
def StreamReader.chunks (r : StreamReader) : List Chunk × ReadError :=
  match h : r.recv json with
  | (.error e, _) => ([], e)
  | (.ok chunk, r') =>
    have : r'.dec.size < r.dec.size := StreamReader.size_recv_lt h
    (chunk :: r'.chunks.1, r'.chunks.2)
termination_by r.dec.size

/-- Of the chunks that are left, the ones the loop takes: up to the first that does not reach the
client. -/
def taken : List Chunk → List Chunk → List Chunk
  | _, [] => []
  | prev, c :: cs => c :: if delivers prev c then taken (prev ++ [c]) cs else []

/-- Whether all the chunks that are left reach the client. -/
def drained : List Chunk → List Chunk → Bool
  | _, [] => true
  | prev, c :: cs => delivers prev c && drained (prev ++ [c]) cs

/-- The last usage a list of chunks reports. -/
def lastUsage (cs : List Chunk) : Option Usage := (cs.filterMap Chunk.usage).getLast?

/-- The usage a stream delivers. -/
def StreamReader.usage (r : StreamReader) : Option Usage :=
  lastUsage (taken delivers [] (r.chunks json).1)

/-- Whether relaying a stream ends with an error of `Recv`. -/
def StreamReader.recvError (r : StreamReader) : Bool :=
  (r.chunks json).2 = .failed ∧ drained delivers [] (r.chunks json).1 = true

theorem lastUsage_cons (c : Chunk) (cs : List Chunk) :
    lastUsage (c :: cs) = (lastUsage cs).or c.usage := by
  rw [lastUsage, lastUsage]
  cases hc : c.usage with
  | none => rw [List.filterMap_cons_none hc, Option.or_none]
  | some u =>
    rw [List.filterMap_cons_some hc, List.getLast?_cons]
    cases (cs.filterMap Chunk.usage).getLast? <;> rfl

variable {json delivers}

theorem StreamReader.chunks_of_error {r r' : StreamReader} {e : ReadError}
    (h : r.recv json = (.error e, r')) : r.chunks json = ([], e) := by
  rw [StreamReader.chunks]
  split <;> simp_all

theorem StreamReader.chunks_of_ok {r r' : StreamReader} {c : Chunk}
    (h : r.recv json = (.ok c, r')) :
    r.chunks json = (c :: (r'.chunks json).1, (r'.chunks json).2) := by
  rw [StreamReader.chunks]
  split <;> simp_all

theorem StreamReader.chunks_congr {r r' : StreamReader} (h : r.recv json = r'.recv json) :
    r.chunks json = r'.chunks json := by
  rcases hr : r'.recv json with ⟨e | c, r''⟩
  · rw [chunks_of_error (h.trans hr), chunks_of_error hr]
  · rw [chunks_of_ok (h.trans hr), chunks_of_ok hr]

/-- What a sequence of events means to a reader, when the body ends with `ending`: the chunks, and
how they end. -/
def StreamReader.decode (json : Json) (ending : ReadError) :
    StreamReader → List Event → List Chunk × ReadError
  | _, [] => ([], ending)
  | r, ev :: evs =>
    match r.event json ev with
    | none => r.decode json ending evs
    | some (.error e, _) => ([], e)
    | some (.ok c, r') => (c :: (r'.decode json ending evs).1, (r'.decode json ending evs).2)

theorem StreamReader.decode_dec (ending : ReadError) (r : StreamReader) (dec : Decoder)
    (evs : List Event) :
    StreamReader.decode json ending { r with dec := dec } evs = r.decode json ending evs := by
  induction evs generalizing r with
  | nil => rfl
  | cons ev evs ih =>
    rw [decode, decode, event_dec]
    rcases r.event json ev with _ | ⟨e | c, r'⟩
    · exact ih r
    · rfl
    · simp only [Option.map_some, ih r']

/-- What a reader returns is what the events of its body mean. -/
theorem StreamReader.chunks_eq_decode (r : StreamReader) :
    r.chunks json = r.decode json r.dec.ending r.dec.events := by
  induction hn : r.dec.size using Nat.strongRecOn generalizing r with
  | ind n ih =>
    subst hn
    rcases hnext : r.dec.next with ⟨e | ev, dec⟩
    · rw [chunks_of_error (recv_of_error hnext), Decoder.events_of_error hnext, decode,
        (Decoder.next_ending hnext).2 e rfl]
    have hlt := Decoder.size_next_lt hnext
    have hending := (Decoder.next_ending hnext).1
    have hrecv : r.recv json = _ := recv_of_ok hnext
    rw [Decoder.events_of_ok hnext, ← hending, ← decode_dec _ r dec, decode]
    rcases hev : event json ev { r with dec := dec } with _ | ⟨e | c, r'⟩
    · -- An event without a meaning is skipped within the same call of `Recv`.
      rw [hev, Option.getD_none] at hrecv
      rw [chunks_congr hrecv]
      exact ih _ hlt { r with dec := dec } rfl
    · rw [hev, Option.getD_some] at hrecv
      exact chunks_of_error hrecv
    · rw [hev, Option.getD_some] at hrecv
      have hdec : r'.dec = dec := dec_of_event hev
      rw [chunks_of_ok hrecv, ih _ (hdec ▸ hlt) r' rfl, hdec]

theorem relay_of_ok {r r' : StreamReader} {s : Relay} {c : Chunk}
    (h : r.recv json = (.ok c, r')) :
    relay json delivers r s =
      if delivers s.relayed c then
        relay json delivers r' ⟨s.pc, c.usage.or s.lastUsage, s.relayed ++ [c]⟩
      else ⟨s.pc, c.usage.or s.lastUsage, s.relayed ++ [c]⟩ := by
  rw [relay]
  split <;> simp_all

theorem relay_of_error {r r' : StreamReader} {s : Relay} {e : ReadError}
    (h : r.recv json = (.error e, r')) :
    relay json delivers r s =
      { s with pc := { s.pc with billingUncertain := s.pc.billingUncertain || e = .failed } } := by
  rw [relay]
  split
  · rename_i heq
    cases h.symm.trans heq
    simp
  · rename_i heq
    cases h.symm.trans heq
    simp
  · rename_i heq
    cases h.symm.trans heq

/-- **What the loop comes to.** -/
theorem relay_eq (r : StreamReader) (s : Relay) :
    relay json delivers r s =
      ⟨{ s.pc with billingUncertain := s.pc.billingUncertain ||
          ((r.chunks json).2 = .failed ∧ drained delivers s.relayed (r.chunks json).1 = true) },
        (lastUsage (taken delivers s.relayed (r.chunks json).1)).or s.lastUsage,
        s.relayed ++ taken delivers s.relayed (r.chunks json).1⟩ := by
  induction r using StreamReader.chunks.induct json generalizing s with
  | case1 r e r' hrecv =>
    rw [relay_of_error hrecv, StreamReader.chunks_of_error hrecv]
    simp [taken, drained, lastUsage]
  | case2 r c r' hrecv hlt ih =>
    rw [relay_of_ok hrecv, StreamReader.chunks_of_ok hrecv]
    by_cases hsent : delivers s.relayed c
    · rw [if_pos hsent, ih]
      simp only [taken, drained, hsent, if_true, Bool.true_and, lastUsage_cons]
      rw [Option.or_assoc, List.append_assoc, List.singleton_append]
    · rw [if_neg hsent]
      simp [taken, drained, hsent, lastUsage]

/-- A whole stream: the context is in doubt if `Recv` failed, and the usage is the one the stream
delivered. -/
theorem relay_start (r : StreamReader) (pc : PluginContext) :
    relay json delivers r ⟨pc, none, []⟩ =
      ⟨{ pc with billingUncertain := pc.billingUncertain || r.recvError json delivers },
        r.usage json delivers, taken delivers [] (r.chunks json).1⟩ := by
  rw [relay_eq, Option.or_none]
  rfl

end Voxeltoad
