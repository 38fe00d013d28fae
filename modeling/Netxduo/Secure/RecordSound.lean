import Netxduo.Secure.Record

/-! Which records of a protected session were authenticated. -/

namespace Netxduo.Tls

open RecordSession (Outcome)

variable {σ : Type}

/-! ### What is asked for -/

/-- The content was decrypted and authenticated under the keys and the sequence number that the session had. --/
inductive Opened (out : RecordOutside σ) (c : Connection) (header : RecordHeader) (body : List UInt8) (content : Content) : Prop
  /-- In TLS 1.3 the cipher authenticates. --/
  | aead13 {inner : List UInt8} {padding : Nat} : c.tls13 = true →
      out.payloadDecrypt c.remoteKeys c.remoteSequenceNumber header.type body = .ok inner →
      inner = content.octets ++ [content.type] ++ List.replicate padding 0 → Opened out c header body content
  /-- The MAC is over the ciphertext. --/
  | encryptThenMac {cipher : List UInt8} {next : SequenceNumber} : c.tls13 = false → content.type = header.type →
      body = cipher ++ (out.hashRecord c.remoteKeys c.remoteSequenceNumber { header with length := cipher.length }
        cipher).take c.hashSize → 0 < c.hashSize →
      out.payloadDecrypt c.remoteKeys next header.type cipher = .ok content.octets → Opened out c header body content
  /-- The MAC is over the plaintext. --/
  | macThenEncrypt {inner : List UInt8} : c.tls13 = false → content.type = header.type →
      out.payloadDecrypt c.remoteKeys c.remoteSequenceNumber header.type body = .ok inner →
      inner = content.octets ++ (out.hashRecord c.remoteKeys c.remoteSequenceNumber
        { header with length := content.octets.length } content.octets).take c.hashSize → 0 < c.hashSize →
      Opened out c header body content
  /-- The suite has no MAC beside its cipher. --/
  | aead12 : c.tls13 = false → content.type = header.type → c.hashSize = 0 →
      out.payloadDecrypt c.remoteKeys c.remoteSequenceNumber header.type body = .ok content.octets →
      Opened out c header body content

structure Report.Authentic (out : RecordOutside σ) (r : Report) : Prop where
  opened : Opened out r.before r.header r.body r.content
  counted : r.after.remoteSequenceNumber.value = r.before.remoteSequenceNumber.value + 1

/-- The octets go to the application, to the handshake, or are an alert. Behind a fragment they go to the handshake. --/
def Report.Used (r : Report) : Prop :=
  (r.content.type = applicationDataType ∧ r.content.octets ≠ []) ∨ r.content.type = alertType ∨
    r.content.type = handshakeType ∨ (r.content.type ≠ applicationDataType ∧ r.before.fragmentReceived = true)

/-- The record was authenticated and counted, or in TLS 1.3 let pass without any use, and not counted. --/
def Report.Sound (out : RecordOutside σ) (r : Report) : Prop :=
  r.Authentic out ∨ r.before.tls13 = true ∧ ¬r.Used ∧ r.after = r.before

/-- In TLS 1.3 the type in the clear is that of application data, or one the session has no use for. --/
def Report.InOrder (r : Report) : Prop :=
  r.before.tls13 = true → r.header.type = applicationDataType ∨
    (r.header.type ≠ alertType ∧ r.header.type ≠ handshakeType ∧ r.before.fragmentReceived = false)

section
variable {out : RecordOutside σ} {c c' : Connection} {header : RecordHeader} {body : List UInt8} {content : Content}

/-! ### Opening a record -/

theorem increment_value {n m : SequenceNumber} (h : n.increment = some m) : m.value = n.value + 1 := by
  unfold SequenceNumber.increment at h
  unfold SequenceNumber.value
  have hlow := n.low.toNat_lt
  have hhigh := n.high.toNat_lt
  have hadd (w : UInt32) : (w + 1).toNat = (w.toNat + 1) % 2 ^ 32 := by
    rw [UInt32.toNat_add]
    rfl
  split at h
  · rename_i hcarry
    have hlow0 : (n.low.toNat + 1) % 2 ^ 32 = 0 := by
      rw [← hadd, hcarry]
      rfl
    split at h
    · cases h
    · rename_i hroom
      cases h
      dsimp only
      have hhigh0 : (n.high.toNat + 1) % 2 ^ 32 ≠ 0 := by
        intro hzero
        rw [← hadd] at hzero
        exact hroom (UInt32.toNat_inj.mp hzero)
      rw [hadd, hadd]
      omega
  · rename_i hplain
    cases h
    dsimp only
    have hlow0 : (n.low.toNat + 1) % 2 ^ 32 ≠ 0 := by
      intro hzero
      rw [← hadd] at hzero
      exact hplain (UInt32.toNat_inj.mp hzero)
    rw [hadd]
    omega

/-- The data that a MAC was checked over, and the count. --/
theorem verifyMac_ok {payload data : List UInt8} (h : verifyMac out c header payload = .ok (c', data)) :
    c'.remoteSequenceNumber.value = c.remoteSequenceNumber.value + 1 ∧ c'.remoteKeys = c.remoteKeys ∧
    (c.hashSize = 0 ∧ data = payload ∨ 0 < c.hashSize ∧ payload = data ++ (out.hashRecord c.remoteKeys
      c.remoteSequenceNumber { header with length := data.length } data).take c.hashSize) := by
  unfold verifyMac at h
  split at h
  · cases h
  · rename_i hlong
    split at h
    · cases h
    · dsimp only at h
      split at h
      · cases h
      · rename_i next hnext
        split at h
        · rename_i hnone
          cases h
          exact ⟨increment_value hnext, rfl, .inl ⟨hnone, rfl⟩⟩
        · rename_i hsome
          split at h
          · rename_i hmac
            cases h
            refine ⟨increment_value hnext, rfl, .inr ⟨Nat.pos_of_ne_zero hsome, ?_⟩⟩
            rw [List.length_take_of_le (Nat.sub_le _ _), ← hmac]
            exact (List.take_append_drop _ payload).symm
          · cases h

theorem stripPadding_ok {inner octets : List UInt8} {type : UInt8} (h : stripPadding inner = .ok (type, octets)) :
    ∃ padding, inner = octets ++ [type] ++ List.replicate padding 0 := by
  unfold stripPadding at h
  split at h
  · cases h
  · rename_i first rest hrest
    cases h
    have hsplit := List.takeWhile_append_dropWhile (p := (· == 0)) (l := inner.reverse)
    have hzero : ∀ o ∈ inner.reverse.takeWhile (· == 0), o = 0 := fun o ho => by
      simpa using List.mem_takeWhile_imp ho
    rw [hrest, List.eq_replicate_of_mem hzero] at hsplit
    refine ⟨(inner.reverse.takeWhile (· == 0)).length, ?_⟩
    have hreverse := congrArg List.reverse hsplit
    rw [List.reverse_reverse, List.reverse_append, List.reverse_cons, List.reverse_replicate] at hreverse
    exact hreverse.symm

theorem open13_ok (h13 : c.tls13 = true) (h : open13 out c header body = .ok (c', content)) :
    Opened out c header body content ∧ c'.remoteSequenceNumber.value = c.remoteSequenceNumber.value + 1 := by
  unfold open13 at h
  split at h
  · cases h
  · split at h
    · cases h
    · rename_i inner hinner
      split at h
      · cases h
      · rename_i next hnext
        split at h
        · cases h
        · rename_i type octets hstrip
          obtain ⟨padding, hpadding⟩ := stripPadding_ok hstrip
          cases h
          exact ⟨.aead13 h13 hinner hpadding, increment_value hnext⟩

theorem openEncryptThenMac_ok (h12 : c.tls13 = false) (h : openEncryptThenMac out c header body = .ok (c', content)) :
    Opened out c header body content ∧ c'.remoteSequenceNumber.value = c.remoteSequenceNumber.value + 1 := by
  unfold openEncryptThenMac at h
  split at h
  · cases h
  · split at h
    · cases h
    · rename_i d cipher hmac
      obtain ⟨hcounted, hkeys, hcases⟩ := verifyMac_ok hmac
      split at h
      · cases h
      · rename_i hshorter
        split at h
        · cases h
        · rename_i octets hoctets
          cases h
          rcases hcases with ⟨_, rfl⟩ | ⟨hsome, hbody⟩
          · exact absurd (.inr (le_refl _)) hshorter
          · rw [hkeys] at hoctets
            exact ⟨.encryptThenMac h12 rfl hbody hsome hoctets, hcounted⟩

theorem openMacThenEncrypt_ok (h12 : c.tls13 = false) (h : openMacThenEncrypt out c header body = .ok (c', content)) :
    Opened out c header body content ∧ c'.remoteSequenceNumber.value = c.remoteSequenceNumber.value + 1 := by
  unfold openMacThenEncrypt at h
  split at h
  · cases h
  · split at h
    · cases h
    · rename_i inner hinner
      split at h
      · cases h
      · rename_i d octets hmac
        obtain ⟨hcounted, _, hcases⟩ := verifyMac_ok hmac
        cases h
        rcases hcases with ⟨hnone, rfl⟩ | ⟨hsome, hplain⟩
        · exact ⟨.aead12 h12 rfl hnone hinner, hcounted⟩
        · exact ⟨.macThenEncrypt h12 rfl hinner hplain hsome, hcounted⟩

/-- A record that is opened is authenticated and counted. One that is not stays as it is. --/
theorem openRecord_ok (h : openRecord out c header body = .ok (c', content)) :
    (c.Opens header.type ∧ Opened out c header body content ∧
      c'.remoteSequenceNumber.value = c.remoteSequenceNumber.value + 1) ∨
    (¬c.Opens header.type ∧ c' = c ∧ content = ⟨header.type, body, false⟩) := by
  unfold openRecord at h
  split at h
  · rename_i hopens
    refine .inl ⟨hopens, ?_⟩
    dsimp only at h
    split at h
    · cases h
    · rename_i d opened hopened
      split at h
      · cases h
      · cases h
        split at hopened
        · rename_i h13
          exact open13_ok h13 hopened
        · rename_i h12
          split at hopened
          · exact openEncryptThenMac_ok (Bool.of_not_eq_true h12) hopened
          · exact openMacThenEncrypt_ok (Bool.of_not_eq_true h12) hopened
  · rename_i hplain
    cases h
    exact .inr ⟨hplain, rfl, rfl⟩

/-- The report says what opening the record gave. --/
def Report.Faithful (out : RecordOutside σ) (r : Report) : Prop :=
  openRecord out r.before r.header r.body = .ok (r.after, r.content)

theorem Report.Faithful.sound_iff {r : Report} (hr : r.Faithful out) (hactive : r.before.remoteSessionActive = true) :
    r.Sound out ↔ r.InOrder := by
  rcases openRecord_ok hr with ⟨⟨_, hopens⟩, hopened, hcounted⟩ | ⟨hplain, hafter, hcontent⟩
  · refine iff_of_true (.inl ⟨hopened, hcounted⟩) fun h13 => .inl (hopens.resolve_left ?_)
    rw [h13]
    decide
  · obtain ⟨h13, htype⟩ : r.before.tls13 = true ∧ r.header.type ≠ applicationDataType := by
      refine ⟨Bool.of_not_eq_false fun h12 => hplain ⟨hactive, .inl h12⟩, fun htype => hplain ⟨hactive, .inr htype⟩⟩
    unfold Report.Sound Report.InOrder Report.Used
    rw [hcontent]
    constructor
    · rintro (⟨_, hcounted⟩ | ⟨_, hunused, _⟩)
      · rw [hafter] at hcounted
        exact absurd hcounted (Nat.ne_of_lt (Nat.lt_succ_self _))
      · obtain ⟨_, hunused⟩ := not_or.mp hunused
        obtain ⟨halert, hunused⟩ := not_or.mp hunused
        obtain ⟨hhandshake, hfragment⟩ := not_or.mp hunused
        exact fun _ => .inr ⟨halert, hhandshake, Bool.of_not_eq_true fun h => hfragment ⟨htype, h⟩⟩
    · intro hin
      obtain ⟨halert, hhandshake, hfragment⟩ := (hin h13).resolve_left htype
      refine .inr ⟨h13, ?_, hafter⟩
      rintro (⟨happlication, _⟩ | halert' | hhandshake' | ⟨_, hfragment'⟩)
      · exact htype happlication
      · exact halert halert'
      · exact hhandshake hhandshake'
      · rw [hfragment] at hfragment'
        cases hfragment'

end

/-! ### Runs -/

/-- Every record that was let in is reported as it was opened, and what went to the application was in one of them. --/
structure Traced (out : RecordOutside σ) (s : RecordSession σ) : Prop where
  faithful : ∀ r ∈ s.reports, r.Faithful out
  returned : ∀ octets ∈ s.returned, ∃ r ∈ s.reports, r.content.octets = octets ∧ r.content.decrypted = true

section
variable {out : RecordOutside σ} {s t : RecordSession σ}

theorem Traced.of_same (hs : Traced out s) (hreports : t.reports = s.reports) (hreturned : t.returned = s.returned) :
    Traced out t where
  faithful := by
    rw [hreports]
    exact hs.faithful
  returned := by
    rw [hreturned, hreports]
    exact hs.returned

theorem processChangeCipherSpec_same (message : List UInt8) :
    (s.processChangeCipherSpec out message).reports = s.reports ∧
    (s.processChangeCipherSpec out message).returned = s.returned := by
  unfold RecordSession.processChangeCipherSpec
  split
  · split <;> exact ⟨rfl, rfl⟩
  · exact ⟨rfl, rfl⟩

theorem useMessage_same (type : UInt8) (message : List UInt8) :
    (s.useMessage out type message).1.reports = s.reports ∧ (s.useMessage out type message).1.returned = s.returned := by
  unfold RecordSession.useMessage
  split
  · exact processChangeCipherSpec_same message
  · split
    · split
      · dsimp only
        split <;> exact ⟨rfl, rfl⟩
      · exact ⟨rfl, rfl⟩
    · split
      · split
        · exact ⟨rfl, rfl⟩
        · exact ⟨rfl, rfl⟩
      · exact ⟨rfl, rfl⟩

/-- Using a record reports nothing, and returns nothing. --/
theorem useContent_same (content : Content) :
    (s.useContent out content).1.reports = s.reports ∧ (s.useContent out content).1.returned = s.returned := by
  unfold RecordSession.useContent
  split
  · split <;> exact ⟨rfl, rfl⟩
  · split
    · exact ⟨rfl, rfl⟩
    · dsimp only
      split
      · split
        · exact ⟨rfl, rfl⟩
        · split
          · exact useMessage_same _ _
          · exact ⟨rfl, rfl⟩
      · exact useMessage_same _ _

/-- One record: what it adds is its own report. --/
theorem processOne_traced {header : RecordHeader} {body : List UInt8} {outcome : Outcome} {content : Option Content}
    (hs : Traced out s) (h : s.processOne out header body = (t, outcome, content)) :
    Traced out t ∧ ∀ last ∈ content, ∃ r ∈ t.reports, r.content = last := by
  unfold RecordSession.processOne at h
  split at h
  · cases h
    exact ⟨hs, by rintro _ ⟨⟩⟩
  · rename_i after opened hopened
    split at h
    rename_i u used hused
    obtain ⟨rfl, hrest⟩ := Prod.mk.inj h
    obtain ⟨_, rfl⟩ := Prod.mk.inj hrest
    have hreports := congrArg (·.1.reports) hused
    have hreturned := congrArg (·.1.returned) hused
    dsimp only at hreports hreturned
    rw [(useContent_same opened).1] at hreports
    rw [(useContent_same opened).2] at hreturned
    replace hreports := hreports.symm
    replace hreturned := hreturned.symm
    refine ⟨⟨?_, ?_⟩, ?_⟩
    · rw [hreports]
      intro r hr
      rcases List.mem_append.mp hr with hr | hr
      · exact hs.faithful r hr
      · rw [List.mem_singleton.mp hr]
        exact hopened
    · rw [hreports, hreturned]
      intro octets hoctets
      obtain ⟨r, hr, hsame⟩ := hs.returned octets hoctets
      exact ⟨r, List.mem_append_left _ hr, hsame⟩
    · rintro last hlast
      rw [hreports]
      exact ⟨_, List.mem_append_right _ List.mem_cons_self, Option.some.inj hlast⟩

theorem processRound_traced {offset processed : Nat} {round : RecordSession.Round} (hs : Traced out s)
    (h : s.processRound out offset processed = (t, round)) :
    Traced out t ∧ ∀ status n content last, round = .leave status n (some content) → content = last →
      ∃ r ∈ t.reports, r.content = last := by
  unfold RecordSession.processRound at h
  split at h
  · cases h
    exact ⟨hs.of_same rfl rfl, by rintro _ _ _ _ ⟨⟩⟩
  · cases h
    exact ⟨hs, by rintro _ _ _ _ ⟨⟩⟩
  · split at h
    · cases h
      exact ⟨hs, by rintro _ _ _ _ ⟨⟩⟩
    · split at h
      · cases h
        exact ⟨hs.of_same rfl rfl, by rintro _ _ _ _ ⟨⟩⟩
      · dsimp only at h
        split at h
        · rename_i u status content hone
          obtain ⟨hu, hlast⟩ := processOne_traced (by exact hs.of_same rfl rfl) hone
          cases h
          refine ⟨hu, ?_⟩
          rintro _ _ _ last ⟨⟩ rfl
          exact hlast _ rfl
        · rename_i u content hone
          obtain ⟨hu, _⟩ := processOne_traced (by exact hs.of_same rfl rfl) hone
          split at h
          · cases h
            exact ⟨hu.of_same rfl rfl, by rintro _ _ _ _ ⟨⟩⟩
          · cases h
            exact ⟨hu, by rintro _ _ _ _ ⟨⟩⟩

/-- The loop over the records of the queue. --/
theorem processLoop_traced {fuel offset processed n : Nat} {status : Status} {content : Option Content}
    (hs : Traced out s) (h : s.processLoop out fuel offset processed = (t, status, n, content)) :
    Traced out t ∧ ∀ last, content = some last → ∃ r ∈ t.reports, r.content = last := by
  induction fuel generalizing s offset processed with
  | zero =>
    cases h
    exact ⟨hs, by rintro _ ⟨⟩⟩
  | succ fuel ih =>
    unfold RecordSession.processLoop at h
    split at h
    rename_i u offset' processed' hresume
    have hu : Traced out u := by
      unfold RecordSession.resume at hresume
      split at hresume
      · cases hresume
        exact hs.of_same rfl rfl
      · cases hresume
        exact hs
    split at h
    · rename_i v status' n' content' hround
      obtain ⟨hv, hlast⟩ := processRound_traced hu hround
      cases h
      refine ⟨hv, ?_⟩
      rintro last rfl
      exact hlast _ _ _ _ rfl rfl
    · rename_i v offset'' processed'' hround
      exact ih (processRound_traced hu hround).1 h

theorem receiveRecords_traced {packet : List UInt8} (hs : Traced out s) : Traced out (s.receiveRecords out packet) := by
  unfold RecordSession.receiveRecords
  split
  · exact hs
  · have hstart : Traced out (if s.connection.fragmentReceived = true then { s with queue := s.queue ++ packet }
        else { s with queue := s.queue ++ packet, packetBuffer := [] }) := by
      split
      · exact hs.of_same rfl rfl
      · exact hs.of_same rfl rfl
    have hloop : ∀ t status n content, s.processRecord out packet = (t, status, n, content) →
        Traced out t ∧ ∀ last, content = some last → ∃ r ∈ t.reports, r.content = last := by
      intro t status n content h
      exact processLoop_traced hstart h
    split
    · rename_i t n content h
      exact (hloop _ _ _ _ h).1
    · rename_i t n content h
      exact (hloop _ _ _ _ h).1.of_same rfl rfl
    · rename_i t n content h
      obtain ⟨ht, hlast⟩ := hloop _ _ _ _ h
      dsimp only
      split
      · rename_i last
        split
        · rename_i hreturned
          obtain ⟨r, hr, hcontent⟩ := hlast _ rfl
          refine ⟨ht.faithful, ?_⟩
          intro octets hoctets
          rcases List.mem_append.mp hoctets with hoctets | hoctets
          · exact ht.returned octets hoctets
          · refine ⟨r, hr, ?_, ?_⟩
            · rw [hcontent, List.mem_singleton.mp hoctets]
            · rw [hcontent]
              exact hreturned.2
        · exact ht.of_same rfl rfl
      · exact ht.of_same rfl rfl
    · rename_i t n content h
      exact (hloop _ _ _ _ h).1.of_same rfl rfl
    · rename_i t status n content _ _ _ _ h
      exact (hloop _ _ _ _ h).1.of_same rfl rfl

open Runs in
/-- In every run, a record that meets an active session is sound if and only if its type in the clear is one it may have,
    and nothing goes to the application that was not decrypted. --/
theorem records_authentic (out : RecordOutside σ) (s₀ : RecordSession σ) (hreports : s₀.reports = [])
    (hreturned : s₀.returned = []) (packets : List (List UInt8)) (s : RecordSession σ)
    (h : Run (RecordSession.receiveRecords out) (fun _ _ => True) s₀ packets s) :
    (∀ r ∈ s.reports, r.before.remoteSessionActive = true → (r.Sound out ↔ r.InOrder)) ∧
    ∀ octets ∈ s.returned, ∃ r ∈ s.reports, r.content.octets = octets ∧ r.content.decrypted = true := by
  have hstart : Traced out s₀ := by
    refine ⟨?_, ?_⟩
    · rw [hreports]
      rintro _ ⟨⟩
    · rw [hreturned]
      rintro _ ⟨⟩
  have hs : Traced out s :=
    h.invariant (P := fun _ s => Traced out s) hstart (fun _ _ _ hs _ => receiveRecords_traced hs)
  exact ⟨fun r hr hactive => (hs.faithful r hr).sound_iff hactive, hs.returned⟩

end

/-! ### A client of TLS 1.3 -/

/-- A cipher that puts its key and the sequence number in front. --/
def plainRecords : RecordOutside Unit where
  checkProtocolVersion _ _ := .ok ()
  payloadDecrypt keys number _ body :=
    match body with
    | key :: n :: inner => if keys = [key] ∧ n.toNat = number.value then .ok inner else .error (.outside 0)
    | _ => .error (.outside 0)
  hashRecord _ _ _ _ := []
  handshake machine c buffer := (.success, machine, c, buffer)
  changeCipherSpec _ _ := none

def finishedClient : Connection where
  socketType := .client
  tls13 := true
  remoteSessionActive := true
  encryptThenMac := false
  remoteKeys := [9]
  hashSize := 0
  remoteSequenceNumber := ⟨0, 0⟩
  clientFinished := true
  serverFinished := false
  fragmentReceived := false
  expectedLength := 0

def protectedSession : RecordSession Unit where
  connection := finishedClient
  machine := ()
  queue := []
  recordOffset := 0
  bytesProcessed := 0
  packetBuffer := []
  packetBufferSize := 200
  receivedAlert := none
  returned := []
  reports := []

open Runs

/-- Two protected octets, in two packets, are returned to the application. --/
theorem records_authentic_two : ∃ s, Run (RecordSession.receiveRecords plainRecords) (fun _ _ => True) protectedSession
      [[23, 3, 3, 0, 5, 9], [0, 104, 105, 23]] s ∧ s.returned = [[104, 105]] ∧
    ∀ r ∈ s.reports, r.before.remoteSessionActive = true → (r.Sound plainRecords ↔ r.InOrder) := by
  have hrun := ((@Run.start _ _ (RecordSession.receiveRecords plainRecords) (fun _ _ => True) protectedSession).next
    (a := [23, 3, 3, 0, 5, 9]) trivial).next (a := [0, 104, 105, 23]) trivial
  exact ⟨_, hrun, by decide +kernel, (records_authentic plainRecords protectedSession rfl rfl _ _ hrun).1⟩

/-- The report of an alert in the clear. --/
def plainAlert : Report := ⟨finishedClient, ⟨alertType, 3, 3, 2⟩, [2, 40], finishedClient, ⟨alertType, [2, 40], false⟩⟩

/-- A fatal alert in the clear ends an active session of TLS 1.3. --/
theorem plain_alert_obeyed : ∃ s, Run (RecordSession.receiveRecords plainRecords) (fun _ _ => True) protectedSession
      [[21, 3, 3, 0, 2, 2, 40]] s ∧ s.receivedAlert = some (2, 40) ∧ s.connection.remoteSessionActive = false ∧
    ∃ r ∈ s.reports, r.before.remoteSessionActive = true ∧ ¬r.Sound plainRecords := by
  have hrun := (@Run.start _ _ (RecordSession.receiveRecords plainRecords) (fun _ _ => True) protectedSession).next
    (a := [21, 3, 3, 0, 2, 2, 40]) trivial
  refine ⟨_, hrun, by decide +kernel, by decide +kernel, plainAlert, by decide +kernel, rfl, fun hsound => ?_⟩
  have hfaithful : plainAlert.Faithful plainRecords := rfl
  rcases (hfaithful.sound_iff rfl).mp hsound rfl with htype | ⟨halert, _⟩
  · exact absurd htype (by decide)
  · exact halert rfl

end Netxduo.Tls
