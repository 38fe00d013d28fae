import Netxduo.Tftp.Transfer

/-! A file that is written over TFTP, on the same kind of network. What the server has in its file is what was written,
    and no less than the client was told. -/

namespace Netxduo.Tftp.Upload

open Runs

/-! ### The source -/

/-- What a server sends to a client that writes. --/
inductive ToClient
  | ack (block : UInt16)
  | error
  deriving DecidableEq

inductive ToServer
  | writeRequest
  | data (block : UInt16) (octets : List UInt8)
  deriving DecidableEq

section server
variable (retransmission : Bool)

/-- `_nx_tftp_server_open_for_write_process` of a file that can be opened. --/
def openForWriteProcess : Option Request → Option Request × Option ToClient
  | some request => (some request, none)
  | none =>
    (some
      { blockNumber := 1
        position := 0
        fileSize := 0
        remainingBytes := 0
        previousWriteSize := 0
        exactFit := false
        requestRetransmits := 0
        retransmitTimeout := if retransmission then Tftp.retransmitTimeout else 0
        retransmitRetries := 0 },
      some (.ack 0))

/-- `_nx_tftp_server_send_ack` --/
def sendAck (retransmit : Bool) (request : Request) : Request × ToClient :=
  if retransmit then (request, .ack (request.blockNumber - 1))
  else ({ request with blockNumber := request.blockNumber + 1 }, .ack request.blockNumber)

/-- `_nx_tftp_server_data_process`: the request, what is sent, and what is written to the file. Whether the file can be
    written is given; a request of a file that cannot is kept. --/
def dataProcess (writable : Bool) (block : UInt16) (octets : List UInt8) :
    Option Request → Option Request × Option ToClient × Option (List UInt8)
  | none => (none, some .error, none)
  | some request =>
    if request.blockNumber ≠ block then
      if request.blockNumber = block + 1 then
        if retransmission then (some request, none, none)
        else
          let request := { request with requestRetransmits := request.requestRetransmits + 1 }
          if request.requestRetransmits ≤ maxClientRetransmits then (some request, none, none)
          else (none, some .error, none)
      else (none, some .error, none)
    else
      let request :=
        if retransmission then
          { request with retransmitRetries := 0, retransmitTimeout := Tftp.retransmitTimeout }
        else { request with requestRetransmits := 0 }
      if transferMax < octets.length then (none, some .error, none)
      else if octets ≠ [] ∧ writable = false then (some request, some .error, none)
      else
        let (request, ack) := sendAck false request
        if octets.length < transferMax then (none, some ack, some octets) else (some request, some ack, some octets)

/-- `_nx_tftp_server_timer_process` of a file that is written. --/
def timerProcess : Option Request → Option Request × Option ToClient
  | none => (none, none)
  | some request =>
    if retransmission = false ∨ request.retransmitTimeout = 0 then (some request, none)
    else
      let request := { request with retransmitTimeout := request.retransmitTimeout - timeoutPeriod }
      if request.retransmitTimeout = 0 then
        if request.retransmitRetries < maxRetries then
          let (request, ack) := sendAck true
            { request with
              retransmitTimeout := Tftp.retransmitTimeout
              retransmitRetries := request.retransmitRetries + 1 }
          (some request, some ack)
        else (none, some .error)
      else (some request, none)

end server

inductive ClientState
  | writeOpen
  | finished
  | error
  deriving DecidableEq

/-- A client, and the octets of the block that `_nxd_tftp_client_file_write` sent and waits for the acknowledgement
    of. --/
structure Client where
  state : ClientState
  blockNumber : UInt16
  waiting : Option (List UInt8)
  deriving DecidableEq

/-- `_nxd_tftp_client_file_write` up to where it waits. --/
def clientFileWrite (sent : Bool) (octets : List UInt8) (c : Client) : Client × Option (List UInt8) :=
  if c.state ≠ .writeOpen ∨ c.waiting ≠ none then (c, none)
  else if sent = false then ({ c with state := .error }, none)
  else ({ c with waiting := some octets }, some octets)

/-- `_nxd_tftp_client_file_write` from there on, with a datagram or without one: the client, and whether it returned
    success. --/
def clientReceive (d : Option ToClient) (c : Client) : Client × Bool :=
  match c.waiting, d with
  | none, _ => (c, false)
  | some _, none => ({ c with waiting := none }, false)
  | some _, some .error => ({ c with state := .error, waiting := none }, false)
  | some octets, some (.ack block) =>
    if block ≠ c.blockNumber then ({ c with state := .error, waiting := none }, false)
    else if octets.length < transferMax then ({ c with state := .finished, waiting := none }, true)
    else ({ c with blockNumber := c.blockNumber + 1, waiting := none }, true)

/-! ### Runs -/

/-- A transfer: how many writes returned success, the blocks in the server's file, and all that was sent, each datagram
    with the count of the block it is about. --/
structure Transfer where
  client : Client
  succeeded : Nat
  request : Option Request
  written : List (List UInt8)
  toClient : List (Nat × ToClient)
  toServer : List (Nat × ToServer)

inductive Action
  | toServer (n : Nat) (d : ToServer) (writable : Bool)
  | timer
  | write (sent : Bool)
  | toClient (n : Nat) (d : ToClient)
  | timeout

section transfer
variable (retransmission : Bool) (file : List UInt8)

/-- The caller writes the blocks of a file, each again until its write returns success. --/
def step (s : Transfer) : Action → Transfer
  | .toServer _ .writeRequest _ =>
    let (request, out) := openForWriteProcess retransmission s.request
    { s with
      request := request
      -- an older file of the name is deleted
      written := if out = none then s.written else []
      toClient := s.toClient ++ out.toList.map fun d => (0, d) }
  | .toServer _ (.data block octets) writable =>
    let (request, out, octets) := dataProcess retransmission writable block octets s.request
    { s with
      request := request
      written := s.written ++ octets.toList
      toClient := s.toClient ++ out.toList.map fun d => (s.written.length + 1, d) }
  | .timer =>
    let (request, out) := timerProcess retransmission s.request
    { s with request := request, toClient := s.toClient ++ out.toList.map fun d => (s.written.length, d) }
  | .write sent =>
    let (client, octets) := clientFileWrite sent (fileRead file (transferMax * s.succeeded)) s.client
    { s with
      client := client
      toServer := s.toServer ++ octets.toList.map fun octets => (s.succeeded + 1, .data s.client.blockNumber octets) }
  | .toClient _ d =>
    let (client, success) := clientReceive (some d) s.client
    { s with client := client, succeeded := if success then s.succeeded + 1 else s.succeeded }
  | .timeout => { s with client := (clientReceive none s.client).1 }

/-- The network makes nothing up, nothing arrives 65535 blocks late, and the request to write does not arrive again once
    the server is done with it: that would delete what was written. --/
def Sound (s : Transfer) : Action → Prop
  | .toServer _ .writeRequest _ => s.request ≠ none
  | .toServer n (.data block octets) _ => (n, .data block octets) ∈ s.toServer ∧ s.written.length + 1 < n + 65536
  | .toClient n d => (n, d) ∈ s.toClient ∧ s.succeeded + 1 < n + 65536
  | _ => True

/-- The server opened the file, and the client got the answer. --/
def start : Transfer :=
  ⟨⟨.writeOpen, 1, none⟩, 0, (openForWriteProcess retransmission none).1, [], [(0, .ack 0)], []⟩

end transfer

/-! ### What a transfer keeps -/

section cases
variable {retransmission : Bool}

/-- What the server makes of a block: nothing but an answer where it is not the one it waits for, else it is written and
    acknowledged. --/
theorem dataProcess_cases (writable : Bool) (block : UInt16) (octets : List UInt8) (request : Option Request) :
    (∃ request' out, dataProcess retransmission writable block octets request = (request', out, none) ∧
      (out = none ∨ out = some .error) ∧
      ∀ r', request' = some r' → ∃ r, request = some r ∧ r'.blockNumber = r.blockNumber) ∨
    (∃ r request', request = some r ∧ r.blockNumber = block ∧
      dataProcess retransmission writable block octets request = (request', some (.ack block), some octets) ∧
      ∀ r', request' = some r' → r'.blockNumber = block + 1) := by
  rcases request with _ | r
  · exact Or.inl ⟨none, _, rfl, Or.inr rfl, by simp⟩
  · generalize hout : dataProcess retransmission writable block octets (some r) = out
    simp only [dataProcess] at hout
    split at hout
    · split at hout
      · split at hout
        · exact Or.inl ⟨_, _, hout.symm, Or.inl rfl, fun r' hr' => ⟨r, rfl, by rw [← Option.some.inj hr']⟩⟩
        · split at hout
          · exact Or.inl ⟨_, _, hout.symm, Or.inl rfl, fun r' hr' => ⟨r, rfl, by rw [← Option.some.inj hr']⟩⟩
          · exact Or.inl ⟨none, _, hout.symm, Or.inr rfl, by simp⟩
      · exact Or.inl ⟨none, _, hout.symm, Or.inr rfl, by simp⟩
    · rename_i hblock
      have hblock := Decidable.of_not_not hblock
      split at hout
      · exact Or.inl ⟨none, _, hout.symm, Or.inr rfl, by simp⟩
      · split at hout
        · refine Or.inl ⟨_, _, hout.symm, Or.inr rfl, fun r' hr' => ⟨r, rfl, ?_⟩⟩
          rw [← Option.some.inj hr']
          split <;> rfl
        · generalize hq : (if retransmission = true then _ else _ : Request) = q at hout
          have hnumber : q.blockNumber = block := by
            rw [← hq]
            split <;> exact hblock
          have hsend : sendAck false q = ({ q with blockNumber := block + 1 }, .ack block) := by
            rw [← hnumber]
            rfl
          simp only [hsend] at hout
          split at hout
          · exact Or.inr ⟨r, none, rfl, hblock, hout.symm, by simp⟩
          · exact Or.inr ⟨r, _, rfl, hblock, hout.symm, fun r' hr' => by rw [← Option.some.inj hr']⟩

/-- The timer ends a request, or has the last acknowledgement sent again. --/
theorem timerProcess_cases (request : Option Request) :
    ∃ request' out, timerProcess retransmission request = (request', out) ∧
      (∀ r', request' = some r' → ∃ r, request = some r ∧ r'.blockNumber = r.blockNumber) ∧
      (out = none ∨ out = some .error ∨ ∃ r, request = some r ∧ out = some (.ack (r.blockNumber - 1))) := by
  rcases request with _ | r
  · exact ⟨none, none, rfl, by simp, Or.inl rfl⟩
  · generalize hout : timerProcess retransmission (some r) = out
    simp only [timerProcess] at hout
    split at hout
    · exact ⟨_, _, hout.symm, fun r' hr' => ⟨r, rfl, by rw [← Option.some.inj hr']⟩, Or.inl rfl⟩
    · split at hout
      · split at hout
        · exact ⟨_, _, hout.symm, fun r' hr' => ⟨r, rfl, by rw [← Option.some.inj hr']; rfl⟩,
            Or.inr (Or.inr ⟨r, rfl, rfl⟩)⟩
        · exact ⟨none, _, hout.symm, by simp, Or.inr (Or.inl rfl)⟩
      · exact ⟨_, _, hout.symm, fun r' hr' => ⟨r, rfl, by rw [← Option.some.inj hr']⟩, Or.inl rfl⟩

/-- A client that does not wait takes nothing; else a write ends with an error, is to be tried again, or returns success
    as its block is acknowledged, which may be the last one. --/
theorem clientReceive_cases (d : Option ToClient) (c : Client) :
    (∃ c', clientReceive d c = (c', false) ∧ (c' = c ∨ c'.waiting = none ∧
      (c'.state = c.state ∧ c'.blockNumber = c.blockNumber ∨ c'.state = .error))) ∨
    (∃ octets block, c.waiting = some octets ∧ d = some (.ack block) ∧ block = c.blockNumber ∧
      (octets.length < transferMax ∧
        clientReceive d c = ({ c with state := .finished, waiting := none }, true) ∨
      ¬ octets.length < transferMax ∧
        clientReceive d c = ({ c with blockNumber := c.blockNumber + 1, waiting := none }, true))) := by
  rcases hwaiting : c.waiting with _ | octets
  · refine Or.inl ⟨c, ?_, Or.inl rfl⟩
    unfold clientReceive
    rw [hwaiting]
  · rcases d with _ | d
    · refine Or.inl ⟨{ c with waiting := none }, ?_, Or.inr ⟨rfl, Or.inl ⟨rfl, rfl⟩⟩⟩
      unfold clientReceive
      rw [hwaiting]
    · cases d with
      | error =>
        refine Or.inl ⟨{ c with state := .error, waiting := none }, ?_, Or.inr ⟨rfl, Or.inr rfl⟩⟩
        unfold clientReceive
        rw [hwaiting]
      | ack block =>
        generalize hout : clientReceive (some (.ack block)) c = out
        simp only [clientReceive, hwaiting] at hout
        split at hout
        · exact Or.inl ⟨_, hout.symm, Or.inr ⟨rfl, Or.inr rfl⟩⟩
        · rename_i hblock
          refine Or.inr ⟨octets, block, rfl, rfl, Decidable.of_not_not hblock, ?_⟩
          split at hout
          · rename_i hshort
            exact Or.inl ⟨hshort, hout.symm⟩
          · rename_i hfull
            exact Or.inr ⟨hfull, hout.symm⟩

end cases

/-- The file has the blocks in their order, one more than the client was told of at most, and every datagram is about
    the block that it says. --/
structure Transfer.Carried (file : List UInt8) (s : Transfer) : Prop where
  written : s.written.flatten = file.take (transferMax * s.written.length)
  succeeded : s.succeeded ≤ s.written.length
  at_most : s.written.length ≤ s.succeeded + 1
  writeOpen : s.client.state = .writeOpen → s.client.blockNumber = UInt16.ofNat (s.succeeded + 1)
  waiting : ∀ octets, s.client.waiting = some octets →
    s.client.state = .writeOpen ∧ octets = fileRead file (transferMax * s.succeeded)
  finished : s.client.state = .finished → file.length < transferMax * s.succeeded
  request : ∀ r, s.request = some r → r.blockNumber = UInt16.ofNat (s.written.length + 1)
  toServer : ∀ n block octets, (n, ToServer.data block octets) ∈ s.toServer →
    n ≤ s.succeeded + 1 ∧ block = UInt16.ofNat n ∧ octets = fileRead file (transferMax * (n - 1))
  toClient : ∀ n block, (n, ToClient.ack block) ∈ s.toClient → n ≤ s.written.length ∧ block = UInt16.ofNat n

section carried
variable {retransmission : Bool} {file : List UInt8} {s : Transfer} {n : Nat}

theorem carried_start (retransmission : Bool) (file : List UInt8) : (start retransmission).Carried file :=
  ⟨rfl, Nat.le_refl 0, Nat.zero_le 1, fun _ => rfl, by simp [start], by simp [start],
    fun r hr => by rw [← Option.some.inj hr]; rfl, by simp [start], by simp [start]⟩

/-- The server writes nothing; what it sends is an error, or an acknowledgement of the last block that it wrote. --/
theorem Transfer.Carried.answer (h : s.Carried file) {request : Option Request} {out : Option ToClient} {m : Nat}
    (hrequest : ∀ r', request = some r' → ∃ r, s.request = some r ∧ r'.blockNumber = r.blockNumber)
    (hout : ∀ block, out = some (.ack block) → m ≤ s.written.length ∧ block = UInt16.ofNat m) :
    Transfer.Carried file { s with request := request, toClient := s.toClient ++ out.toList.map fun d => (m, d) } := by
  refine ⟨h.written, h.succeeded, h.at_most, h.writeOpen, h.waiting, h.finished, fun r' hr' => ?_, h.toServer,
    fun k block hmem => ?_⟩
  · obtain ⟨r, hr, hsame⟩ := hrequest r' hr'
    exact hsame.trans (h.request r hr)
  · rcases List.mem_append.mp hmem with hold | hnew
    · exact h.toClient k block hold
    · obtain ⟨d, hd, heq⟩ := List.mem_map.mp hnew
      obtain ⟨rfl, rfl⟩ := Prod.mk.inj heq
      exact hout block (Option.mem_toList.mp hd)

/-- A block that the server writes is the one behind those it wrote. --/
theorem Transfer.Carried.dataProcess (h : s.Carried file) {block : UInt16} {octets : List UInt8} (writable : Bool)
    (hmem : (n, .data block octets) ∈ s.toServer) (hnear : s.written.length + 1 < n + 65536) :
    (step retransmission file s (.toServer n (.data block octets) writable)).Carried file := by
  rcases @dataProcess_cases retransmission writable block octets s.request with
    ⟨request', out, hprocess, hout, hrequest⟩ | ⟨r, request', hr, hblock, hprocess, hrequest⟩
  · simp only [step, hprocess, Option.toList_none, List.append_nil]
    refine h.answer hrequest fun b hb => ?_
    rcases hout with rfl | rfl
    · cases hb
    · cases hb
  · obtain ⟨hle, rfl, rfl⟩ := h.toServer n block octets hmem
    have hnumber := h.request r hr
    have hnext : s.written.length + 1 ≤ n := block_le (by rw [← hnumber, hblock]) hnear
    have hbound := h.succeeded
    obtain rfl : n = s.written.length + 1 := by omega
    simp only [step, hprocess, Option.toList_some, List.map_cons, List.map_nil]
    refine ⟨?_, ?_, ?_, h.writeOpen, h.waiting, h.finished, fun r' hr' => ?_, h.toServer, fun k b hk => ?_⟩
    · simpa [h.written] using take_fileRead file s.written.length
    · simp
      omega
    · simp
      omega
    · rw [hrequest r' hr', block_succ]
      simp
    · rcases List.mem_append.mp hk with hold | hnew
      · obtain ⟨hk, hsame⟩ := h.toClient k b hold
        exact ⟨by simp; omega, hsame⟩
      · obtain ⟨rfl, rfl⟩ : k = s.written.length + 1 ∧ b = UInt16.ofNat (s.written.length + 1) := by simpa using hnew
        exact ⟨by simp, rfl⟩

/-- The client sends the block behind those it was told of. --/
theorem Transfer.Carried.clientFileWrite (h : s.Carried file) (sent : Bool) :
    (step retransmission file s (.write sent)).Carried file := by
  simp only [step, Upload.clientFileWrite]
  split
  · simpa using h
  · rename_i hopen
    rw [not_or, not_not, not_not] at hopen
    split
    · refine ⟨h.written, h.succeeded, h.at_most, by simp, ?_, by simp, h.request, by simpa using h.toServer, h.toClient⟩
      simp [hopen.2]
    · refine ⟨h.written, h.succeeded, h.at_most, h.writeOpen, ?_, h.finished, h.request, fun m b o hm => ?_, h.toClient⟩
      · intro octets hoctets
        exact ⟨hopen.1, (Option.some.inj hoctets).symm⟩
      · rcases List.mem_append.mp hm with hold | hnew
        · exact h.toServer m b o hold
        · obtain ⟨rfl, rfl, rfl⟩ : m = s.succeeded + 1 ∧ b = s.client.blockNumber ∧
            o = fileRead file (transferMax * s.succeeded) := by simpa using hnew
          exact ⟨Nat.le_refl _, h.writeOpen hopen.1, rfl⟩

/-- What the client waits for does not come. --/
theorem Transfer.Carried.gives_up (h : s.Carried file) {c : Client}
    (hc : c = s.client ∨ c.waiting = none ∧
      (c.state = s.client.state ∧ c.blockNumber = s.client.blockNumber ∨ c.state = .error)) :
    Transfer.Carried file { s with client := c } := by
  rcases hc with rfl | ⟨hwaiting, ⟨hstate, hnumber⟩ | herror⟩
  · exact h
  · exact ⟨h.written, h.succeeded, h.at_most, by simpa [hstate, hnumber] using h.writeOpen, by simp [hwaiting],
      by simpa [hstate] using h.finished, h.request, h.toServer, h.toClient⟩
  · exact ⟨h.written, h.succeeded, h.at_most, by simp [herror], by simp [hwaiting], by simp [herror], h.request,
      h.toServer, h.toClient⟩

/-- A write returns success where the server wrote the block. --/
theorem Transfer.Carried.clientReceive (h : s.Carried file) {d : ToClient} (hmem : (n, d) ∈ s.toClient)
    (hnear : s.succeeded + 1 < n + 65536) : (step retransmission file s (.toClient n d)).Carried file := by
  rcases clientReceive_cases (some d) s.client with ⟨c, hreceive, hc⟩ |
    ⟨octets, block, hwaiting, hd, hblock, hend⟩
  · simpa [step, hreceive] using h.gives_up hc
  · obtain rfl := Option.some.inj hd
    obtain ⟨hstate, rfl⟩ := h.waiting octets hwaiting
    obtain ⟨hle, rfl⟩ := h.toClient n block hmem
    have hnumber := h.writeOpen hstate
    have hnext : s.succeeded + 1 ≤ n := block_le (by rw [← hnumber, hblock]) hnear
    have hsucceeded : s.succeeded + 1 ≤ s.written.length := Nat.le_trans hnext hle
    have hat_most := Nat.le_succ_of_le h.at_most
    have htoServer : ∀ m block octets, (m, ToServer.data block octets) ∈ s.toServer →
        m ≤ s.succeeded + 1 + 1 ∧ block = UInt16.ofNat m ∧ octets = fileRead file (transferMax * (m - 1)) :=
      fun m block octets hm => by
        obtain ⟨hm, hsame⟩ := h.toServer m block octets hm
        exact ⟨Nat.le_succ_of_le hm, hsame⟩
    rcases hend with ⟨hshort, hreceive⟩ | ⟨hfull, hreceive⟩
    · simp only [step, hreceive, if_true]
      refine ⟨h.written, hsucceeded, hat_most, by simp, by simp, fun _ => ?_, h.request, htoServer, h.toClient⟩
      rw [fileRead_length] at hshort
      simp only [transferMax] at *
      omega
    · simp only [step, hreceive, if_true]
      refine ⟨h.written, hsucceeded, hat_most, fun _ => ?_, by simp, by simp [hstate], h.request, htoServer, h.toClient⟩
      rw [← block_succ, ← hnumber]

/-- Every action keeps it. --/
theorem Transfer.Carried.step (h : s.Carried file) {a : Action} (ha : Sound s a) :
    (step retransmission file s a).Carried file := by
  cases a with
  | toServer n d writable =>
    cases d with
    | writeRequest =>
      rcases hrequest : s.request with _ | r
      · exact absurd hrequest ha
      · have hsame : ({ s with request := some r } : Transfer) = s := by rw [← hrequest]
        simpa [Upload.step, hrequest, openForWriteProcess, hsame] using h
    | data block octets => exact h.dataProcess writable ha.1 ha.2
  | timer =>
    obtain ⟨request', out, htimer, hrequest, hout⟩ := @timerProcess_cases retransmission s.request
    simp only [Upload.step, htimer]
    refine h.answer hrequest fun block hblock => ?_
    rcases hout with rfl | rfl | ⟨r, hr, rfl⟩
    · cases hblock
    · cases hblock
    · cases hblock
      exact ⟨Nat.le_refl _, by rw [h.request r hr, block_pred]⟩
  | write sent => exact h.clientFileWrite sent
  | toClient n d => exact h.clientReceive ha.1 ha.2
  | timeout =>
    rcases clientReceive_cases none s.client with ⟨c, hreceive, hc⟩ | ⟨octets, block, hwaiting, hd, hblock, hend⟩
    · simpa [Upload.step, hreceive] using h.gives_up hc
    · cases hd

/-- However datagrams are lost, repeated and reordered, and with or without retransmission by the server: its file is
    the beginning of the one that is written, every block whose write returned success is in it, and where the client
    is finished it has all. --/
theorem run_upload {actions : List Action}
    (h : Run (Upload.step retransmission file) Sound (start retransmission) actions s) :
    s.written.flatten <+: file ∧ file.take (transferMax * s.succeeded) <+: s.written.flatten ∧
      (s.client.state = .finished → s.written.flatten = file) := by
  have hcarried : s.Carried file := h.invariant (P := fun _ s => s.Carried file) (carried_start retransmission file)
    fun _ _ _ hcarried ha => hcarried.step ha
  have hbound : transferMax * s.succeeded ≤ transferMax * s.written.length := Nat.mul_le_mul_left _ hcarried.succeeded
  rw [hcarried.written]
  refine ⟨List.take_prefix _ _, List.take_prefix_take_left hbound, fun hfinished => ?_⟩
  exact List.take_of_length_le (Nat.le_of_lt (Nat.lt_of_lt_of_le (hcarried.finished hfinished) hbound))

theorem run_upload_threeOctets :
    let s := Upload.step false [1, 2, 3] (Upload.step false [1, 2, 3]
      (Upload.step false [1, 2, 3] (start false) (.write true)) (.toServer 1 (.data 1 [1, 2, 3]) true))
      (.toClient 1 (.ack 1))
    s.written.flatten <+: [1, 2, 3] ∧ [1, 2, 3].take (transferMax * s.succeeded) <+: s.written.flatten ∧
      (s.client.state = .finished → s.written.flatten = [1, 2, 3]) :=
  run_upload (((show Run (Upload.step false [1, 2, 3]) Sound (start false) [.write true] _ from
    Run.single trivial).next (by exact ⟨by decide, by decide⟩)).next (by exact ⟨by decide, by decide⟩))

end carried

end Netxduo.Tftp.Upload
