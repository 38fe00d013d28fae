import Mathlib.Logic.Relation
import Netxduo.Secure.RecordSound

/-! Records read off a stream of octets, one after the other: what a session makes of the stream, whatever the packets
    are that bring it. -/

namespace Netxduo.Tls
open Relation

variable {σ : Type} {out : RecordOutside σ} {s t c c' : RecordSession σ}

/-! ### What is left to others -/

/-- An error that ends a session. --/
def Status.fatal (e : Status) : Prop :=
  e ≠ .success ∧ e ≠ .continue ∧ e ≠ .postHandshakeReceived ∧ e ≠ .alertReceived

instance (e : Status) : Decidable e.fatal := inferInstanceAs (Decidable (_ ∧ _ ∧ _ ∧ _))

/-- The errors of the version check and of the ciphers end a session. The machine of the handshake does not ask for more
    octets and does not report alerts, and a part of a message leaves it waiting for the rest. --/
structure RecordOutside.Regular (out : RecordOutside σ) : Prop where
  version : ∀ c header e, out.checkProtocolVersion c header = .error e → e.fatal
  decrypt : ∀ keys number type body e, out.payloadDecrypt keys number type body = .error e → e.fatal
  handshake : ∀ m c message, (out.handshake m c message).1 ≠ .continue ∧ (out.handshake m c message).1 ≠ .alertReceived
  fragment : ∀ m c message, (out.handshake m c message).1 = .handshakeFragmentReceived →
    (out.handshake m c message).2.2.1.fragmentReceived = true ∧
    (out.handshake m c message).2.2.1.socketType = c.socketType

namespace RecordSession

/-- The session, with another queue and another place in it. --/
def place (s : RecordSession σ) (queue : List UInt8) (offset processed : Nat) : RecordSession σ :=
  { s with queue := queue, recordOffset := offset, bytesProcessed := processed }

/-- The packet buffer holds nothing unless a fragment waits there. --/
def settle (s : RecordSession σ) : RecordSession σ :=
  if s.connection.fragmentReceived = true then s else { s with packetBuffer := [] }

/-- Neither reset nor ended by an alert. --/
def Open (s : RecordSession σ) : Prop := s.connection.socketType ≠ .none ∧ s.receivedAlert = none

instance (s : RecordSession σ) : Decidable s.Open := inferInstanceAs (Decidable (_ ∧ _))

/-- What a call makes of the session when the records end with `status`. --/
def conclude (status : Status) (content : Option Content) (t : RecordSession σ) : RecordSession σ :=
  match status with
  | .postHandshakeReceived => t
  | .success =>
    match content with
    | some content =>
      if t.handshakeFinished = true ∧ content.decrypted = true then { t with returned := t.returned ++ [content.octets] }
      else t
    | none => t
  | .alertReceived => { t with connection := { t.connection with clientFinished := false, serverFinished := false } }
  | _ => t.reset

/-- The next record of the stream, used; the queue is the rest of the stream. --/
def advance (out : RecordOutside σ) (c : RecordSession σ) : Option (RecordSession σ) :=
  if c.Open then
    match c.processHeader out 0 with
    | .error .continue => none
    | .error _ => some c.reset
    | .ok header =>
      if header.length = 0 then some (c.place (c.queue.drop recordHeaderSize) 0 0)
      else if c.queue.length < recordHeaderSize + header.length then none
      else
        match c.processOne out header ((c.queue.drop recordHeaderSize).take header.length) with
        | (t, .next, _) => some (t.place (c.queue.drop (recordHeaderSize + header.length)) 0 0)
        | (t, .stop status, content) =>
          some ((conclude status content t).settle.place (c.queue.drop (recordHeaderSize + header.length)) 0 0)
  else none

/-- Records of the stream, used one after the other. --/
def Reads (out : RecordOutside σ) : RecordSession σ → RecordSession σ → Prop :=
  ReflTransGen fun c c' => c.advance out = some c'

/-! ### The place does not matter to a record -/

section place
variable {queue queue' : List UInt8} {offset processed offset' processed' : Nat}

theorem settle_place : (s.place queue offset processed).settle = s.settle.place queue offset processed := by
  unfold settle
  by_cases h : s.connection.fragmentReceived = true
  · rw [if_pos h, if_pos (by exact h)]
  · rw [if_neg h, if_neg (by exact h)]
    rfl

theorem settle_connection : s.settle.connection = s.connection := by
  unfold settle
  split <;> rfl

theorem settle_alert : s.settle.receivedAlert = s.receivedAlert := by
  unfold settle
  split <;> rfl

theorem settle_settle : s.settle.settle = s.settle := by
  rw [settle, settle_connection]
  unfold settle
  split <;> rfl

theorem settle_open : s.settle.Open ↔ s.Open := by
  rw [Open, settle_connection, settle_alert, Open]

theorem conclude_place {status : Status} {content : Option Content} :
    conclude status content (s.place queue offset processed) =
      (conclude status content s).place queue offset processed := by
  unfold conclude
  split
  · rfl
  · split
    · rename_i content
      by_cases hreturn : s.handshakeFinished = true ∧ content.decrypted = true
      · rw [if_pos hreturn, if_pos (by exact hreturn)]
        rfl
      · rw [if_neg hreturn, if_neg (by exact hreturn)]
    · rfl
  · rfl
  · rfl

theorem processChangeCipherSpec_place {message : List UInt8} :
    (s.place queue offset processed).processChangeCipherSpec out message =
      (s.processChangeCipherSpec out message).place queue offset processed := by
  unfold processChangeCipherSpec
  by_cases h : message = [1] ∧ s.connection.tls13 = false
  · rw [if_pos h, if_pos (by exact h)]
    dsimp only [place]
    cases out.changeCipherSpec s.machine s.connection <;> rfl
  · rw [if_neg h, if_neg (by exact h)]

theorem useMessage_place {type : UInt8} {message : List UInt8} :
    (s.place queue offset processed).useMessage out type message =
      ((s.useMessage out type message).1.place queue offset processed, (s.useMessage out type message).2) := by
  unfold useMessage
  by_cases hccs : type = changeCipherSpecType
  · rw [if_pos hccs, if_pos hccs, processChangeCipherSpec_place]
  · rw [if_neg hccs, if_neg hccs]
    by_cases halert : type = alertType
    · rw [if_pos halert, if_pos halert]
      split
      · rename_i level value _
        by_cases hfatal : level = alertLevelFatal
        · simp only [hfatal]
          rfl
        · simp only [if_neg hfatal]
          rfl
      · rfl
    · rw [if_neg halert, if_neg halert]
      by_cases hhandshake : type = handshakeType
      · rw [if_pos hhandshake, if_pos hhandshake]
        by_cases hpost : s.connection.tls13 = true ∧ s.connection.clientFinished = true
        · rw [if_pos hpost, if_pos (by exact hpost)]
        · rw [if_neg hpost, if_neg (by exact hpost)]
          rfl
      · rw [if_neg hhandshake, if_neg hhandshake]

theorem useContent_place {content : Content} :
    (s.place queue offset processed).useContent out content =
      ((s.useContent out content).1.place queue offset processed, (s.useContent out content).2) := by
  unfold useContent
  by_cases hdata : content.type = applicationDataType
  · rw [if_pos hdata, if_pos hdata]
    split <;> rfl
  · rw [if_neg hdata, if_neg hdata]
    by_cases hroom : s.packetBufferSize < s.packetBuffer.length + content.octets.length
    · rw [if_pos hroom, if_pos (by exact hroom)]
    · rw [if_neg hroom, if_neg (by exact hroom)]
      simp only
      by_cases hfragment : s.connection.fragmentReceived = true
      · rw [if_pos hfragment, if_pos (by exact hfragment)]
        by_cases hshort : s.connection.expectedLength < (s.packetBuffer ++ content.octets).length ∧
            s.connection.expectedLength < handshakeHeaderSize
        · rw [if_pos hshort, if_pos (by exact hshort)]
          rfl
        · rw [if_neg hshort, if_neg (by exact hshort)]
          by_cases hwhole : s.connection.expectedLength ≤ (s.packetBuffer ++ content.octets).length
          · rw [if_pos hwhole, if_pos (by exact hwhole)]
            exact useMessage_place (s := { s with
              packetBuffer := s.packetBuffer ++ content.octets
              connection := { s.connection with fragmentReceived := false, expectedLength := 0 } })
          · rw [if_neg hwhole, if_neg (by exact hwhole)]
            rfl
      · rw [if_neg hfragment, if_neg (by exact hfragment)]
        exact useMessage_place (s := { s with packetBuffer := s.packetBuffer ++ content.octets })

theorem processOne_place {header : RecordHeader} {body : List UInt8} :
    (s.place queue offset processed).processOne out header body =
      ((s.processOne out header body).1.place queue offset processed, (s.processOne out header body).2) := by
  unfold processOne
  dsimp only [place]
  cases openRecord out s.connection header body with
  | error e => rfl
  | ok opened =>
    obtain ⟨after, content⟩ := opened
    exact congrArg (fun r : RecordSession σ × Outcome => (r.1, r.2, some content))
      (useContent_place (s := { s with
        connection := after
        reports := s.reports ++ [⟨s.connection, header, body, after, content⟩] }))

end place

/-! ### More octets do not change what was read -/

/-- The octets that are not read yet, with more behind them. --/
def push (c : RecordSession σ) (octets : List UInt8) : RecordSession σ := { c with queue := c.queue ++ octets }

/-- The header in the queue from `offset` on is the header of the rest. --/
theorem processHeader_place {offset offset' processed' : Nat} (h : offset < s.queue.length ∨ offset = 0) :
    s.processHeader out offset = (s.place (s.queue.drop offset) offset' processed').processHeader out 0 := by
  have hextract : s.extract offset recordHeaderSize =
      (s.place (s.queue.drop offset) offset' processed').extract 0 recordHeaderSize := by
    rw [extract, if_pos h, extract, if_pos (.inr rfl)]
    rfl
  unfold processHeader
  rw [hextract]
  rfl

/-- A header that is there is five octets, and only waiting for them depends on what comes later. --/
theorem processHeader_push {octets : List UInt8} (h : c.processHeader out 0 ≠ .error .continue) :
    (c.push octets).processHeader out 0 = c.processHeader out 0 ∧ recordHeaderSize ≤ c.queue.length := by
  have hextract : c.extract 0 recordHeaderSize = some (c.queue.take recordHeaderSize) := if_pos (.inr rfl)
  have hlength : recordHeaderSize ≤ c.queue.length := by
    by_contra hshort
    apply h
    unfold processHeader
    rw [hextract]
    have htake : (c.queue.take recordHeaderSize).length < 5 := by
      rw [List.length_take]
      unfold recordHeaderSize at hshort ⊢
      omega
    generalize c.queue.take recordHeaderSize = header at htake
    obtain _ | ⟨_, _ | ⟨_, _ | ⟨_, _ | ⟨_, _ | ⟨_, _⟩⟩⟩⟩⟩ := header
    · rfl
    · rfl
    · rfl
    · rfl
    · rfl
    · simp only [List.length_cons] at htake
      omega
  refine ⟨?_, hlength⟩
  have hextract' : (c.push octets).extract 0 recordHeaderSize = some (c.queue.take recordHeaderSize) := by
    rw [extract, if_pos (.inr rfl)]
    exact congrArg some (List.take_append_of_le_length hlength)
  unfold processHeader
  rw [hextract, hextract']
  rfl

theorem push_place {octets : List UInt8} :
    c.push octets = c.place (c.queue ++ octets) c.recordOffset c.bytesProcessed := rfl

theorem advance_push {octets : List UInt8} (h : c.advance out = some c') :
    (c.push octets).advance out = some (c'.push octets) := by
  unfold advance at h
  split at h
  · rename_i hopen
    rw [advance, if_pos (by exact hopen)]
    split at h
    · cases h
    · rename_i e hne hheader
      have hpush := @processHeader_push _ out c octets (by rw [hheader]; exact fun he => hne (Except.error.inj he))
      rw [hpush.1, hheader]
      split
      · rename_i he
        exact absurd (Except.error.inj he) hne
      · obtain rfl := Option.some.inj h
        rfl
      · rename_i he
        cases he
    · rename_i header hheader
      have hpush := @processHeader_push _ out c octets (by rw [hheader]; rintro ⟨⟩)
      rw [hpush.1, hheader]
      show (if header.length = 0 then _ else _) = _
      split at h
      · rename_i hzero
        obtain rfl := Option.some.inj h
        rw [if_pos hzero]
        refine congrArg some ?_
        show c.place ((c.queue ++ octets).drop recordHeaderSize) 0 0 = _
        rw [List.drop_append_of_le_length hpush.2]
        rfl
      · rename_i hzero
        rw [if_neg hzero]
        split at h
        · cases h
        · rename_i hwhole
          have hwhole' : recordHeaderSize + header.length ≤ c.queue.length := Nat.not_lt.mp hwhole
          have hlonger : ¬(c.push octets).queue.length < recordHeaderSize + header.length := by
            show ¬(c.queue ++ octets).length < _
            rw [List.length_append]
            omega
          have hbody : ((c.push octets).queue.drop recordHeaderSize).take header.length =
              (c.queue.drop recordHeaderSize).take header.length := by
            show ((c.queue ++ octets).drop recordHeaderSize).take header.length = _
            rw [List.drop_append_of_le_length hpush.2, List.take_append_of_le_length]
            rw [List.length_drop]
            omega
          have hrest : (c.push octets).queue.drop (recordHeaderSize + header.length) =
              c.queue.drop (recordHeaderSize + header.length) ++ octets :=
            List.drop_append_of_le_length hwhole'
          rw [if_neg hlonger, hbody, hrest, push_place, processOne_place]
          split at h
          · rename_i t _ hone
            obtain rfl := Option.some.inj h
            rw [hone]
            rfl
          · rename_i t status content hone
            obtain rfl := Option.some.inj h
            rw [hone]
            show some ((conclude status content (t.place _ _ _)).settle.place _ _ _) = _
            rw [conclude_place, settle_place]
            rfl
  · cases h

theorem Reads.push {octets : List UInt8} (h : Reads out c c') : Reads out (c.push octets) (c'.push octets) := by
  induction h with
  | refl => exact .refl
  | tail _ hstep ih => exact ih.tail (advance_push hstep)

/-- Where nothing more can be read, the stream has been read in the only way there is. --/
theorem Reads.unique {a b : RecordSession σ} (ha : Reads out c a) (hb : Reads out c b) (hadone : a.advance out = none)
    (hbdone : b.advance out = none) : a = b := by
  have hunique : Relator.RightUnique fun c c' : RecordSession σ => c.advance out = some c' := by
    intro x y z hy hz
    exact Option.some.inj (hy.symm.trans hz)
  rcases ReflTransGen.total_of_right_unique hunique ha hb with hab | hba
  · rcases hab.cases_head with heq | ⟨x, hx, _⟩
    · exact heq
    · rw [hadone] at hx
      cases hx
  · rcases hba.cases_head with heq | ⟨x, hx, _⟩
    · exact heq.symm
    · rw [hbdone] at hx
      cases hx

/-! ### How a record ends -/

section ends
variable {header : RecordHeader} {body : List UInt8} {type : UInt8} {message : List UInt8} {content : Content}
  {last : Option Content} {status : Status}

theorem verifyMac_error {k : Connection} {payload : List UInt8} {e : Status}
    (h : verifyMac out k header payload = .error e) : e.fatal := by
  unfold verifyMac at h
  split at h
  · obtain rfl := Except.error.inj h
    decide
  · split at h
    · obtain rfl := Except.error.inj h
      decide
    · simp only at h
      split at h
      · obtain rfl := Except.error.inj h
        decide
      · split at h
        · cases h
        · split at h
          · cases h
          · obtain rfl := Except.error.inj h
            decide

theorem verifyMac_same {k k' : Connection} {payload data : List UInt8}
    (h : verifyMac out k header payload = .ok (k', data)) :
    k'.socketType = k.socketType ∧ k'.fragmentReceived = k.fragmentReceived := by
  unfold verifyMac at h
  split at h
  · cases h
  · split at h
    · cases h
    · simp only at h
      split at h
      · cases h
      · split at h
        · obtain ⟨rfl, -⟩ := Prod.mk.inj (Except.ok.inj h)
          exact ⟨rfl, rfl⟩
        · split at h
          · obtain ⟨rfl, -⟩ := Prod.mk.inj (Except.ok.inj h)
            exact ⟨rfl, rfl⟩
          · cases h

theorem open13_error (hout : out.Regular) {k : Connection} {e : Status} (h : open13 out k header body = .error e) :
    e.fatal := by
  unfold open13 at h
  split at h
  · obtain rfl := Except.error.inj h
    decide
  · split at h
    · rename_i hdecrypt
      obtain rfl := Except.error.inj h
      exact hout.decrypt _ _ _ _ _ hdecrypt
    · split at h
      · obtain rfl := Except.error.inj h
        decide
      · split at h
        · rename_i hstrip
          obtain rfl := Except.error.inj h
          unfold stripPadding at hstrip
          split at hstrip
          · obtain rfl := Except.error.inj hstrip
            decide
          · cases hstrip
        · cases h

theorem openEncryptThenMac_error (hout : out.Regular) {k : Connection} {e : Status}
    (h : openEncryptThenMac out k header body = .error e) : e.fatal := by
  unfold openEncryptThenMac at h
  split at h
  · obtain rfl := Except.error.inj h
    decide
  · split at h
    · rename_i hmac
      obtain rfl := Except.error.inj h
      exact verifyMac_error hmac
    · split at h
      · obtain rfl := Except.error.inj h
        decide
      · split at h
        · rename_i hdecrypt
          obtain rfl := Except.error.inj h
          exact hout.decrypt _ _ _ _ _ hdecrypt
        · cases h

theorem openMacThenEncrypt_error (hout : out.Regular) {k : Connection} {e : Status}
    (h : openMacThenEncrypt out k header body = .error e) : e.fatal := by
  unfold openMacThenEncrypt at h
  split at h
  · obtain rfl := Except.error.inj h
    decide
  · split at h
    · rename_i hdecrypt
      obtain rfl := Except.error.inj h
      exact hout.decrypt _ _ _ _ _ hdecrypt
    · split at h
      · rename_i hmac
        obtain rfl := Except.error.inj h
        exact verifyMac_error hmac
      · cases h

theorem openRecord_error (hout : out.Regular) {k : Connection} {e : Status}
    (h : openRecord out k header body = .error e) : e.fatal := by
  unfold openRecord at h
  split at h
  · simp only at h
    split at h
    · rename_i hopened
      obtain rfl := Except.error.inj h
      split at hopened
      · exact open13_error hout hopened
      · split at hopened
        · exact openEncryptThenMac_error hout hopened
        · exact openMacThenEncrypt_error hout hopened
    · split at h
      · obtain rfl := Except.error.inj h
        decide
      · cases h
  · cases h

/-- Opening a record counts it, and changes nothing else that the session goes by. --/
theorem openRecord_same {k k' : Connection} (h : openRecord out k header body = .ok (k', content)) :
    k'.socketType = k.socketType ∧ k'.fragmentReceived = k.fragmentReceived := by
  unfold openRecord at h
  split at h
  · simp only at h
    split at h
    · cases h
    · rename_i opened hopened
      split at h
      · cases h
      · obtain ⟨rfl, -⟩ := Prod.mk.inj (Except.ok.inj h)
        split at hopened
        · unfold open13 at hopened
          split at hopened
          · cases hopened
          · split at hopened
            · cases hopened
            · split at hopened
              · cases hopened
              · split at hopened
                · cases hopened
                · obtain ⟨rfl, -⟩ := Prod.mk.inj (Except.ok.inj hopened)
                  exact ⟨rfl, rfl⟩
        · split at hopened
          · unfold openEncryptThenMac at hopened
            split at hopened
            · cases hopened
            · split at hopened
              · cases hopened
              · rename_i hmac
                split at hopened
                · cases hopened
                · split at hopened
                  · cases hopened
                  · obtain ⟨rfl, -⟩ := Prod.mk.inj (Except.ok.inj hopened)
                    exact verifyMac_same hmac
          · unfold openMacThenEncrypt at hopened
            split at hopened
            · cases hopened
            · split at hopened
              · cases hopened
              · split at hopened
                · cases hopened
                · rename_i hmac
                  obtain ⟨rfl, -⟩ := Prod.mk.inj (Except.ok.inj hopened)
                  exact verifyMac_same hmac
  · obtain ⟨rfl, -⟩ := Prod.mk.inj (Except.ok.inj h)
    exact ⟨rfl, rfl⟩

/-- Out of the function go a success, an error, or an alert, behind which the session is not open. --/
theorem useMessage_stop (hout : out.Regular) (h : s.useMessage out type message = (t, .stop status)) :
    status ≠ .continue ∧ (status = .alertReceived → ¬t.Open) := by
  unfold useMessage at h
  split at h
  · obtain ⟨rfl, hstop⟩ := Prod.mk.inj h
    obtain rfl := Outcome.stop.inj hstop
    exact ⟨by decide, by rintro ⟨⟩⟩
  · split at h
    · split at h
      · obtain ⟨rfl, hstop⟩ := Prod.mk.inj h
        obtain rfl := Outcome.stop.inj hstop
        exact ⟨by decide, fun _ hopen => by cases hopen.2⟩
      · obtain ⟨rfl, hstop⟩ := Prod.mk.inj h
        obtain rfl := Outcome.stop.inj hstop
        exact ⟨by decide, by rintro ⟨⟩⟩
    · split at h
      · split at h
        · obtain ⟨rfl, hstop⟩ := Prod.mk.inj h
          obtain rfl := Outcome.stop.inj hstop
          exact ⟨by decide, by rintro ⟨⟩⟩
        · obtain ⟨hcontinue, halert⟩ := hout.handshake s.machine s.connection message
          obtain ⟨-, hstop⟩ := Prod.mk.inj h
          split at hstop
          · cases hstop
          · obtain rfl := Outcome.stop.inj hstop
            exact ⟨hcontinue, fun halert' => absurd halert' halert⟩
      · obtain ⟨rfl, hstop⟩ := Prod.mk.inj h
        obtain rfl := Outcome.stop.inj hstop
        exact ⟨by decide, by rintro ⟨⟩⟩

/-- The loop goes on behind a part of a message, and the session waits for the rest. --/
theorem useMessage_next (hout : out.Regular) (h : s.useMessage out type message = (t, .next)) :
    t.connection.fragmentReceived = true ∧ (t.Open ↔ s.Open) := by
  unfold useMessage at h
  split at h
  · cases (Prod.mk.inj h).2
  · split at h
    · split at h
      · cases (Prod.mk.inj h).2
      · cases (Prod.mk.inj h).2
    · split at h
      · split at h
        · cases (Prod.mk.inj h).2
        · obtain ⟨rfl, hnext⟩ := Prod.mk.inj h
          split at hnext
          · rename_i hfragment
            obtain ⟨hreceived, htype⟩ := hout.fragment s.machine s.connection message hfragment
            refine ⟨hreceived, ?_⟩
            show (_ ≠ SocketType.none ∧ _) ↔ (_ ∧ _)
            rw [htype]
          · cases hnext
      · cases (Prod.mk.inj h).2

theorem useContent_stop (hout : out.Regular) (h : s.useContent out content = (t, .stop status)) :
    status ≠ .continue ∧ (status = .alertReceived → ¬t.Open) := by
  unfold useContent at h
  split at h
  · split at h
    · cases (Prod.mk.inj h).2
    · obtain rfl := Outcome.stop.inj (Prod.mk.inj h).2
      exact ⟨by decide, by rintro ⟨⟩⟩
  · split at h
    · obtain rfl := Outcome.stop.inj (Prod.mk.inj h).2
      exact ⟨by decide, by rintro ⟨⟩⟩
    · simp only at h
      split at h
      · split at h
        · obtain rfl := Outcome.stop.inj (Prod.mk.inj h).2
          exact ⟨by decide, by rintro ⟨⟩⟩
        · split at h
          · exact useMessage_stop hout h
          · cases (Prod.mk.inj h).2
      · exact useMessage_stop hout h

theorem useContent_next (hout : out.Regular) (hs : s.settle = s) (h : s.useContent out content = (t, .next)) :
    t.settle = t ∧ (t.Open ↔ s.Open) := by
  unfold useContent at h
  split at h
  · split at h
    · obtain ⟨rfl, -⟩ := Prod.mk.inj h
      exact ⟨hs, Iff.rfl⟩
    · cases (Prod.mk.inj h).2
  · split at h
    · cases (Prod.mk.inj h).2
    · simp only at h
      split at h
      · rename_i hfragment
        split at h
        · cases (Prod.mk.inj h).2
        · split at h
          · obtain ⟨hreceived, hopen⟩ := useMessage_next hout h
            exact ⟨if_pos hreceived, hopen⟩
          · obtain ⟨rfl, -⟩ := Prod.mk.inj h
            exact ⟨if_pos hfragment, Iff.rfl⟩
      · obtain ⟨hreceived, hopen⟩ := useMessage_next hout h
        exact ⟨if_pos hreceived, hopen⟩

theorem processOne_stop (hout : out.Regular) (h : s.processOne out header body = (t, .stop status, last)) :
    status ≠ .continue ∧ (status = .alertReceived → ¬t.Open) := by
  unfold processOne at h
  split at h
  · rename_i e hopened
    obtain ⟨-, hstop⟩ := Prod.mk.inj h
    obtain rfl := Outcome.stop.inj (Prod.mk.inj hstop).1
    obtain ⟨-, hcontinue, -, halert⟩ := openRecord_error hout hopened
    exact ⟨hcontinue, fun h => absurd h halert⟩
  · simp only at h
    obtain ⟨ht, hstop⟩ := Prod.mk.inj h
    exact useContent_stop hout (Prod.ext ht (Prod.mk.inj hstop).1)

theorem processOne_next (hout : out.Regular) (hs : s.settle = s)
    (h : s.processOne out header body = (t, .next, last)) : t.settle = t ∧ (t.Open ↔ s.Open) := by
  unfold processOne at h
  split at h
  · cases (Prod.mk.inj (Prod.mk.inj h).2).1
  · rename_i after content hopened
    obtain ⟨htype, hfragment⟩ := openRecord_same hopened
    simp only at h
    obtain ⟨ht, hnext⟩ := Prod.mk.inj h
    have hsettled : ({ s with connection := after, reports := s.reports ++ [⟨s.connection, header, body, after, content⟩] }
        : RecordSession σ).settle = { s with
          connection := after, reports := s.reports ++ [⟨s.connection, header, body, after, content⟩] } := by
      by_cases hreceived : after.fragmentReceived = true
      · exact if_pos hreceived
      · have hbuffer : s.packetBuffer = [] := by
          rw [← hs, settle, if_neg (by rw [← hfragment]; exact hreceived)]
        rw [settle, if_neg (by exact hreceived), hbuffer]
    obtain ⟨hsettle, hopen⟩ := useContent_next hout hsettled (Prod.ext ht (Prod.mk.inj hnext).1)
    refine ⟨hsettle, hopen.trans ?_⟩
    show (after.socketType ≠ .none ∧ _) ↔ (_ ∧ _)
    rw [htype]

end ends

end RecordSession

end Netxduo.Tls
