import DaphneZmq.Lib.Device
import DaphneZmq.SspClient

/-! What fragmentation does to the calls of an `SSPClient`: nothing. A received length is a cut through the
    bytes that are there, whatever the sizes of the pieces in which they come, so that only the number of `recv`
    calls depends on these. -/

namespace DaphneZmq.SspLedControl
open Lib.Simulation
open Lib.Device (bind_ok)

variable {P : Type} {peer : Peer P} {cuts cuts' : Cuts}

/-! ### Receiving -/

def closedText (peer : Peer P) : String := if peer.closes then "socket closed while receiving response" else "timed out"

/-- What `recvExact` comes to: the bytes, if there are enough of them. -/
def received (peer : Peer P) (size : Nat) (chunks : List UInt8) (s : Socket P) : EStateM.Result String (Socket P) (List UInt8) :=
  if size ≤ s.incoming.length then .ok (chunks ++ s.incoming.take size) { s with incoming := s.incoming.drop size }
  else .error (closedText peer) { s with incoming := [] }

/-- The sockets differ at most in how often `recv` has been called. -/
def Counts (s t : Socket P) : Prop := ∃ n, s = { t with recvs := n }

/-- The results are the same, up to the number of `recv` calls. -/
abbrev Same {α : Type} := Alike (ε := String) (α := α) (Counts (P := P))

theorem Same.trans {α : Type} {r r' r'' : EStateM.Result String (Socket P) α} (h : Same r r') (h' : Same r' r'') : Same r r'' := by
  cases h with
  | ok h =>
    obtain ⟨n, rfl⟩ := h
    cases h' with | ok h' =>
    obtain ⟨_, rfl⟩ := h'
    exact .ok ⟨n, rfl⟩
  | error h =>
    obtain ⟨n, rfl⟩ := h
    cases h' with | error h' =>
    obtain ⟨_, rfl⟩ := h'
    exact .error ⟨n, rfl⟩

theorem Same.symm {α : Type} {r r' : EStateM.Result String (Socket P) α} (h : Same r r') : Same r' r := by
  cases h with
  | ok h =>
    obtain ⟨_, rfl⟩ := h
    exact .ok ⟨_, rfl⟩
  | error h =>
    obtain ⟨_, rfl⟩ := h
    exact .error ⟨_, rfl⟩

theorem take_append_take {α : Type} (l : List α) {k n : Nat} (hk : k ≤ n) : l.take k ++ (l.drop k).take (n - k) = l.take n := by
  have := (List.take_add (i := k) (j := n - k) (l := l)).symm
  rwa [Nat.add_sub_cancel' hk] at this

/-- A `recv` takes the next few bytes, at least one. -/
theorem recv_some (peer : Peer P) (cuts : Cuts) {bufsize : Nat} (hpos : 0 < bufsize) {s : Socket P} (hs : s.incoming ≠ []) :
    ∃ taken, 0 < taken ∧ taken ≤ bufsize ∧ taken ≤ s.incoming.length ∧ recv peer cuts bufsize s =
      .ok (s.incoming.take taken) { s with incoming := s.incoming.drop taken, recvs := s.recvs + 1 } := by
  have hlength := List.length_pos_iff.mpr hs
  refine ⟨_, ?_, ?_, ?_, by rw [recv, if_neg hs]⟩ <;> omega

theorem recvLoop_same (peer : Peer P) (cuts : Cuts) (size : Nat) (chunks : List UInt8) (s : Socket P) :
    Same (recvLoop peer cuts size chunks s) (received peer size chunks s) := by
  induction size using Nat.strong_induction_on generalizing chunks s with
  | _ size ih =>
  cases size with
  | zero =>
    rw [recvLoop, received, if_pos (Nat.zero_le _), List.take_zero, List.append_nil]
    exact .ok ⟨s.recvs, rfl⟩
  | succ n =>
    rw [recvLoop]
    simp only [bind, EStateM.bind]
    by_cases hs : s.incoming = []
    · -- nothing is left to receive
      rw [received, if_neg (by simp [hs]), recv, if_pos hs, closedText]
      cases peer.closes <;> exact .error ⟨s.recvs + 1, by rw [hs]⟩
    · obtain ⟨taken, hpos, hle, hlength, hrecv⟩ := recv_some peer cuts (Nat.succ_pos n) hs
      rw [hrecv]
      have hne : s.incoming.take taken ≠ [] := by
        rw [← List.length_pos_iff, List.length_take]
        omega
      obtain ⟨b, bs, hchunk⟩ := List.exists_cons_of_ne_nil hne
      have hbs : bs.length + 1 = taken := by
        rw [← List.length_cons (a := b), ← hchunk, List.length_take, Nat.min_eq_left hlength]
      simp only [hchunk, hbs]
      -- the rest of the loop, on what is left after this piece
      refine (ih (n + 1 - taken) (by omega) _ _).trans ?_
      simp only [received, List.length_drop, List.drop_drop, List.append_assoc, ← hchunk, take_append_take _ hle,
        Nat.add_sub_cancel' hle]
      by_cases hsize : n + 1 ≤ s.incoming.length
      · rw [if_pos (by omega), if_pos hsize]
        exact .ok ⟨s.recvs + 1, rfl⟩
      · rw [if_neg (by omega), if_neg hsize]
        exact .error ⟨s.recvs + 1, rfl⟩

theorem received_same (size : Nat) (chunks : List UInt8) {s t : Socket P} (h : Counts s t) :
    Same (received peer size chunks s) (received peer size chunks t) := by
  obtain ⟨n, rfl⟩ := h
  by_cases hsize : size ≤ t.incoming.length
  · rw [received, received, if_pos hsize, if_pos hsize]
    exact .ok ⟨n, rfl⟩
  · rw [received, received, if_neg hsize, if_neg hsize]
    exact .error ⟨n, rfl⟩

/-- Enough bytes are received as they are. -/
theorem recvExact_of_le (peer : Peer P) (cuts : Cuts) {size : Nat} {s : Socket P} (h : size ≤ s.incoming.length) :
    ∃ n, recvExact peer cuts size s =
      .ok (s.incoming.take size) { s with incoming := s.incoming.drop size, recvs := n } := by
  have hsame := recvLoop_same peer cuts size [] s
  rw [received, if_pos h, List.nil_append] at hsame
  rw [recvExact]
  generalize recvLoop peer cuts size [] s = r at hsame ⊢
  cases hsame with | ok hcounts =>
  obtain ⟨n, rfl⟩ := hcounts
  exact ⟨n, rfl⟩

/-! ### Calls, in pieces and unfragmented -/

section Pieces
variable (bad : List UInt8 → Prop)

/-- Some response is `bad`. -/
def Met (s : Socket P) : Prop := ∃ response ∈ s.responses, bad response

theorem Same.responses {α : Type} {r r' : EStateM.Result String (Socket P) α} (h : Same r r') :
    (last r).responses = (last r').responses := by
  cases h with
  | ok h =>
    obtain ⟨n, rfl⟩ := h
    rfl
  | error h =>
    obtain ⟨n, rfl⟩ := h
    rfl

theorem received_responses (size : Nat) (chunks : List UInt8) (s : Socket P) :
    (last (received peer size chunks s)).responses = s.responses := by
  unfold received
  split <;> rfl

theorem simulates_recvExact (size : Nat) :
    Simulates Counts (Met bad) (recvExact peer cuts size) (recvExact peer cuts' size) where
  stays {s} hmet := by
    rwa [Met, recvExact, (recvLoop_same peer cuts size [] s).responses, received_responses]
  alike hcounts := Or.inr (((recvLoop_same peer cuts size [] _).trans (received_same size [] hcounts)).trans
    (recvLoop_same peer cuts' size [] _).symm)

theorem simulates_sendall (request : List UInt8) :
    Simulates Counts (Met bad) (sendall peer request) (sendall peer request) where
  stays := by
    rintro s ⟨response, hmem, hbad⟩
    exact ⟨response, List.mem_append_left _ hmem, hbad⟩
  alike := by
    rintro s t ⟨n, rfl⟩
    exact Or.inr (.ok ⟨n, rfl⟩)

theorem simulates_receiveReply (cuts cuts' : Cuts) (address : Int) :
    Simulates Counts (Met bad) (receiveReply peer cuts address) (receiveReply peer cuts' address) := by
  refine (simulates_recvExact bad _).bind fun bytes => ?_
  dsimp only
  split
  · exact .throw _
  refine Simulates.bind ?_ fun payload_bytes => ?_
  · split
    · exact simulates_recvExact bad _
    · exact .pure _
  · split
    · exact .throw _
    · exact .pure _

theorem simulates_transaction (peer : Peer P) (cuts cuts' : Cuts) (address command : Int) (data_words : List Int) :
    Simulates Counts (Met bad) (transaction peer cuts address command data_words)
      (transaction peer cuts' address command data_words) := by
  unfold transaction
  cases packRequest address command data_words with
  | error e => exact .throw e
  | ok packet => exact (simulates_sendall bad packet).bind fun _ => simulates_receiveReply bad cuts cuts' address

/-- A transaction that is answered badly has met this answer. -/
theorem met_transaction {address command : Int} {data_words : List Int} {packet : List UInt8} {s : Socket P}
    (hpack : packRequest address command data_words = .ok packet) (hbad : bad (peer.respond s.peer packet).1) :
    Met bad (last (transaction peer cuts address command data_words s)) := by
  simp only [transaction, hpack]
  rw [bind_ok (m := sendall peer packet) rfl]
  refine (simulates_receiveReply bad cuts cuts address).stays ?_
  exact ⟨_, List.mem_append_right _ (List.mem_singleton_self _), hbad⟩

end Pieces

section Calls
variable {σ τ : Type} {R : σ → τ → Prop} {lost : σ → Prop} {t : Int → Int → List Int → EStateM String σ Reply}
  {t' : Int → Int → List Int → EStateM String τ Reply}

/-- The transactions that calls are made of run alike. -/
structure Transacts (R : σ → τ → Prop) (lost : σ → Prop) (t : Int → Int → List Int → EStateM String σ Reply)
    (t' : Int → Int → List Int → EStateM String τ Reply) : Prop where
  read : ∀ address, Simulates R lost (t address CMD_READ []) (t' address CMD_READ [])
  write : ∀ address value, Simulates R lost (t address CMD_WRITE [value]) (t' address CMD_WRITE [value])

/-! Where transactions run alike, calls do. -/

theorem simulates_read (h : Transacts R lost t t') (address : Int) :
    Simulates R lost (read t address) (read t' address) := by
  unfold read
  refine (h.read _).bind fun reply => ?_
  split
  · exact .throw _
  split
  · exact .throw _
  · split
    · exact .throw _
    · exact .pure _

theorem simulates_write (h : Transacts R lost t t') (address value : Int) (verify : Bool) :
    Simulates R lost (write t address value verify) (write t' address value verify) := by
  unfold write
  refine (h.write _ _).bind fun reply => ?_
  split
  · exact .throw _
  split
  · exact .throw _
  split
  · exact .pure _
  · refine (simulates_read h address).bind fun readback => ?_
    split
    · exact .throw _
    · exact .pure _

theorem simulates_session (h : Transacts R lost t t') (calls : List Call) :
    Simulates R lost (session t calls) (session t' calls) := by
  refine Simulates.mapM (fun call => Simulates.attempt ?_) calls
  cases call with
  | read address =>
    rw [Call.run, Call.run, map_eq_pure_bind, map_eq_pure_bind]
    exact (simulates_read h address).bind fun _ => .pure _
  | write address value verify => exact simulates_write h address value verify

end Calls

/-! ### Responses -/

/-- The payload is received as it is. -/
theorem recv_payload (peer : Peer P) (cuts : Cuts) {payload rest : List UInt8} {s : Socket P} (hs : s.incoming = payload ++ rest) :
    ∃ n, (if payload.length ≠ 0 then recvExact peer cuts payload.length else pure []) s =
      .ok payload { s with incoming := rest, recvs := n } := by
  by_cases hempty : payload.length = 0
  · rw [if_neg (not_not.mpr hempty)]
    rw [List.eq_nil_of_length_eq_zero hempty] at hs ⊢
    rw [List.nil_append] at hs
    exact ⟨s.recvs, by rw [← hs]; rfl⟩
  · rw [if_pos hempty]
    have hle : payload.length ≤ s.incoming.length := by
      rw [hs, List.length_append]
      exact Nat.le_add_right _ _
    obtain ⟨n, hrecv⟩ := recvExact_of_le peer cuts hle
    rw [hs, List.take_left, List.drop_left] at hrecv
    exact ⟨n, hrecv⟩

/-- As much of a response as its header announces. The header is taken in any case. -/
def extent (response : List UInt8) : Nat := max HEADER_SIZE (announced response)

/-- A transaction takes of the response what its header announces, and returns or raises what this part says. -/
theorem transaction_takes (cuts : Cuts) {address command : Int} {data_words : List Int} {packet response : List UInt8} {s : Socket P} {p : P}
    (hpack : packRequest address command data_words = .ok packet) (hrespond : peer.respond s.peer packet = (response, p))
    (hs : s.incoming = []) (hextent : extent response ≤ response.length) :
    ∃ n, let t : Socket P := ⟨p, s.responses ++ [response], response.drop (extent response), n⟩
      transaction peer cuts address command data_words s =
        match answer address (response.take (extent response)) with
        | .error e => .error e t
        | .ok reply => .ok reply t := by
  have hheader : HEADER_SIZE ≤ response.length := (Nat.le_max_left _ _).trans hextent
  obtain ⟨n, hrecv⟩ := recvExact_of_le peer cuts (s := ⟨p, s.responses ++ [response], response, s.recvs⟩) hheader
  have hsend : sendall peer packet s = .ok () ⟨p, s.responses ++ [response], response, s.recvs⟩ := by
    simp only [sendall, hrespond, hs, List.nil_append]
  simp only [transaction, hpack]
  rw [bind_ok hsend, receiveReply, bind_ok hrecv]
  have htake : (response.take (extent response)).take HEADER_SIZE = response.take HEADER_SIZE := by
    rw [List.take_take, extent, Nat.min_eq_left (Nat.le_max_left _ _)]
  unfold answer announced
  rw [htake]
  unfold extent announced at hextent ⊢
  generalize unpackHeader (response.take HEADER_SIZE) = header at hextent ⊢
  by_cases hshort : header.total_len.toNat < HEADER_SIZE
  · refine ⟨n, ?_⟩
    rw [if_pos hshort, if_pos hshort, Nat.max_eq_left hshort.le]
    rfl
  · rw [Nat.max_eq_right (Nat.le_of_not_lt hshort)] at hextent ⊢
    have hlength : header.total_len.toNat - HEADER_SIZE = ((response.take header.total_len.toNat).drop HEADER_SIZE).length := by
      rw [List.length_drop, List.length_take, Nat.min_eq_left hextent]
    have hsplit : response.drop HEADER_SIZE =
        (response.take header.total_len.toNat).drop HEADER_SIZE ++ response.drop header.total_len.toNat := by
      have := (List.take_append_drop (header.total_len.toNat - HEADER_SIZE) (response.drop HEADER_SIZE)).symm
      rwa [List.drop_drop, Nat.add_sub_cancel' (Nat.le_of_not_lt hshort), ← List.drop_take] at this
    obtain ⟨k, hpayload⟩ := recv_payload peer cuts
      (s := ⟨p, s.responses ++ [response], response.drop HEADER_SIZE, n⟩) hsplit
    refine ⟨k, ?_⟩
    rw [if_neg hshort, if_neg hshort, hlength, bind_ok hpayload]
    split
    · rfl
    · rfl

/-- A packet is taken as a whole. -/
theorem transaction_of_wellFormed (cuts : Cuts) {address command : Int} {data_words : List Int} {packet response : List UInt8} {s : Socket P} {p : P}
    (hpack : packRequest address command data_words = .ok packet) (hrespond : peer.respond s.peer packet = (response, p))
    (hs : s.incoming = []) (hwell : WellFormed response) :
    ∃ n, let t : Socket P := ⟨p, s.responses ++ [response], [], n⟩
      transaction peer cuts address command data_words s =
        match answer address response with
        | .error e => .error e t
        | .ok reply => .ok reply t := by
  have htaken := transaction_takes cuts hpack hrespond hs hwell.symm.le
  rwa [show extent response = response.length from hwell.symm, List.take_length, List.drop_length] at htaken

/-- The socket is at the next response. -/
structure Positioned (s : Socket P) (p : P) : Prop where
  peer : s.peer = p
  incoming : s.incoming = []

theorem simulates_exchange (peer : Peer P) (cuts : Cuts) (address command : Int) (data_words : List Int) :
    Simulates Positioned (Met fun response => ¬WellFormed response) (transaction peer cuts address command data_words)
      (exchange peer address command data_words) where
  stays := (simulates_transaction _ peer cuts cuts _ _ _).stays
  alike {s p} hpos := by
    obtain ⟨rfl, hs⟩ := hpos
    cases hpack : packRequest address command data_words with
    | error e =>
      simp only [transaction, exchange, hpack]
      exact Or.inr (.error ⟨rfl, hs⟩)
    | ok packet =>
      by_cases hwell : WellFormed (peer.respond s.peer packet).1
      · obtain ⟨n, hn⟩ := transaction_of_wellFormed cuts hpack (Prod.eta _).symm hs hwell
        right
        rw [hn]
        simp only [exchange, hpack]
        cases answer address (peer.respond s.peer packet).1 with
        | error e => exact .error ⟨rfl, rfl⟩
        | ok reply => exact .ok ⟨rfl, rfl⟩
      · exact Or.inl (met_transaction _ hpack hwell)

theorem transacts_pieces (peer : Peer P) (cuts cuts' : Cuts) :
    Transacts Counts (Met fun _ => False) (transaction peer cuts) (transaction peer cuts') where
  read address := simulates_transaction _ peer cuts cuts' address _ _
  write address _ := simulates_transaction _ peer cuts cuts' address _ _

theorem transacts_exchange (peer : Peer P) (cuts : Cuts) :
    Transacts Positioned (Met fun response => ¬WellFormed response) (transaction peer cuts) (exchange peer) where
  read address := simulates_exchange peer cuts address _ _
  write address _ := simulates_exchange peer cuts address _ _

/-- The calls return and raise what they do when every `recv` gets all that it asks for, and leave as much of the
    stream to be received. Where the peer answers with packets, each transaction takes its response as a whole, and
    the stream is left at the next one. -/
theorem session_framing (peer : Peer P) (cuts : Cuts) (p : P) (calls : List Call) :
    ∃ outcomes s n, session (transaction peer cuts) calls (.start p) = .ok outcomes s ∧
      session (transaction peer whole) calls (.start p) = .ok outcomes { s with recvs := n } ∧
      ((∀ response ∈ s.responses, WellFormed response) →
        s.incoming = [] ∧ session (exchange peer) calls p = .ok outcomes s.peer) := by
  obtain ⟨outcomes, s, hs⟩ := exists_mapM_attempt (fun call => call.run (transaction peer cuts)) calls (.start p)
  have hwhole := (simulates_session (transacts_pieces peer cuts whole) calls).alike
    (s := .start p) (t := .start p) ⟨0, rfl⟩
  have hexchange := (simulates_session (transacts_exchange peer cuts) calls).alike
    (s := .start p) (t := p) ⟨rfl, rfl⟩
  have hsession : session (transaction peer cuts) calls (.start p) = .ok outcomes s := hs
  rw [hsession] at hwhole hexchange
  refine ⟨outcomes, s, ?_⟩
  rcases hwhole with ⟨_, _, hfalse⟩ | hsame
  · exact hfalse.elim
  generalize session (transaction peer whole) calls (.start p) = r at hsame ⊢
  cases hsame with | @ok _ _ t hcounts =>
  obtain ⟨n, rfl⟩ := hcounts
  refine ⟨t.recvs, hsession, rfl, fun hwell => ?_⟩
  rcases hexchange with ⟨response, hmem, hbad⟩ | hsame
  · exact absurd (hwell response hmem) hbad
  generalize session (exchange peer) calls p = r at hsame ⊢
  cases hsame with | ok hpos =>
  exact ⟨hpos.incoming, by rw [hpos.peer]⟩

end DaphneZmq.SspLedControl
