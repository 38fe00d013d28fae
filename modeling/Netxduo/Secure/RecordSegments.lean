import Netxduo.Secure.RecordReader

/-! The packets that bring a stream of records do not matter: what a session makes of the stream is what it makes of its
    records, one after the other. -/

namespace Netxduo.Tls
open Relation Runs

namespace RecordSession

variable {σ : Type} {out : RecordOutside σ} {s t c c' : RecordSession σ}

/-! ### Where a call leaves the session -/

/-- The end of `_nx_secure_tls_session_receive_records`, behind the processing of records. --/
def finish : RecordSession σ × Status × Nat × Option Content → RecordSession σ
  | (t, .continue, _, _) => t
  | (t, .postHandshakeReceived, processed, _) => { t with queue := t.queue.drop processed }
  | (t, .success, processed, content) =>
    let t := { t with queue := t.queue.drop processed }
    match content with
    | some content =>
      if t.handshakeFinished = true ∧ content.decrypted = true then { t with returned := t.returned ++ [content.octets] }
      else t
    | none => t
  | (t, .alertReceived, _, _) =>
    { t with connection := { t.connection with clientFinished := false, serverFinished := false } }
  | (t, _, _, _) => t.reset

theorem receiveRecords_finish {packet : List UInt8} (h : s.connection.socketType ≠ .none) :
    s.receiveRecords out packet = finish (s.processRecord out packet) := by
  rw [receiveRecords, if_neg h]
  rfl

theorem reset_not_open : ¬s.reset.Open := fun h => h.1 rfl

theorem finish_fatal {status : Status} {processed : Nat} {content : Option Content} (h : status.fatal) :
    finish (s, status, processed, content) = s.reset ∧ conclude status content s = s.reset := by
  obtain ⟨hsuccess, hcontinue, hpost, halert⟩ := h
  cases status with
  | success => exact absurd rfl hsuccess
  | «continue» => exact absurd rfl hcontinue
  | postHandshakeReceived => exact absurd rfl hpost
  | alertReceived => exact absurd rfl halert
  | _ => exact ⟨rfl, rfl⟩

/-- Out of the loop, what was processed leaves the queue of a session that stays open. --/
theorem finish_conclude {status : Status} {processed : Nat} {content : Option Content}
    (hcontinue : status ≠ .continue) (halert : status = .alertReceived → ¬t.Open) :
    ∃ queue, finish (t, status, processed, content) =
        (conclude status content t).place queue t.recordOffset t.bytesProcessed ∧
      ((conclude status content t).Open → queue = t.queue.drop processed) := by
  by_cases hfatal : status.fatal
  · obtain ⟨hfinish, hconclude⟩ := @finish_fatal σ t status processed content hfatal
    exact ⟨t.queue, hfinish.trans (by rw [hconclude]; rfl), fun h => absurd (hconclude ▸ h) reset_not_open⟩
  · by_cases hsuccess : status = .success
    · subst hsuccess
      refine ⟨t.queue.drop processed, ?_, fun _ => rfl⟩
      have hconclude := @conclude_place σ t (t.queue.drop processed) t.recordOffset t.bytesProcessed .success content
      rw [← hconclude]
      rfl
    · by_cases hpost : status = .postHandshakeReceived
      · subst hpost
        exact ⟨t.queue.drop processed, rfl, fun _ => rfl⟩
      · have heq : status = .alertReceived := by
          by_contra hne
          exact hfatal ⟨hsuccess, hcontinue, hpost, hne⟩
        subst heq
        exact ⟨t.queue, rfl, fun h => absurd h (halert rfl)⟩

/-- The session has read the stream as far as `c`: it is `c`, apart from its place in its own queue. --/
structure Follows (s c : RecordSession σ) : Prop where
  same : c = s.settle.place c.queue 0 0
  rest : s.Open → c.queue = s.queue.drop s.recordOffset ∧ s.recordOffset ≤ s.queue.length ∧
    (s.recordOffset ≠ 0 → s.bytesProcessed = s.recordOffset)

/-- From `c` on, something was read unless nothing could be. --/
def Progress (out : RecordOutside σ) (c c' : RecordSession σ) : Prop :=
  c.advance out = none ∨ c'.queue.length < c.queue.length ∨ ¬c'.Open

theorem advance_suffix (h : c.advance out = some c') : c'.queue <:+ c.queue := by
  unfold advance at h
  split at h
  · split at h
    · cases h
    · obtain rfl := Option.some.inj h
      exact List.suffix_refl _
    · split at h
      · obtain rfl := Option.some.inj h
        exact List.drop_suffix _ _
      · split at h
        · cases h
        · split at h
          · obtain rfl := Option.some.inj h
            exact List.drop_suffix _ _
          · obtain rfl := Option.some.inj h
            exact List.drop_suffix _ _
  · cases h

theorem Reads.suffix (h : Reads out c c') : c'.queue <:+ c.queue := by
  induction h with
  | refl => exact List.suffix_refl _
  | tail _ hstep ih => exact (advance_suffix hstep).trans ih

theorem processHeader_fatal (hout : out.Regular) {offset : Nat} {e : Status}
    (h : s.processHeader out offset = .error e) (hne : e ≠ .continue) : e.fatal := by
  unfold processHeader at h
  split at h
  · simp only at h
    split at h
    · rename_i hversion
      obtain rfl := Except.error.inj h
      exact hout.version _ _ _ hversion
    · cases h
  · exact absurd (Except.error.inj h).symm hne
  · obtain rfl := Except.error.inj h
    decide

/-! ### A round of the loop -/

/-- A session between two records of its queue. --/
structure Between (s : RecordSession σ) (offset : Nat) : Prop where
  settled : s.settle = s
  «open» : s.Open
  fresh : s.recordOffset = 0
  inside : offset < s.queue.length ∨ offset = 0

/-- What the session has still to read. --/
def ahead (s : RecordSession σ) (offset : Nat) : RecordSession σ := s.place (s.queue.drop offset) 0 0

/-- The next record of the queue is the next record of the stream. --/
theorem processRound_reads (hout : out.Regular) {offset : Nat} {round : Round} (hs : Between s offset)
    (h : s.processRound out offset offset = (t, round)) :
    (∀ status processed content, round = .leave status processed content →
      ∃ c', Reads out (s.ahead offset) c' ∧ Follows (finish (t, status, processed, content)) c' ∧
        Progress out (s.ahead offset) c') ∧
    ∀ next processed, round = .goOn next processed → processed = next ∧ offset < next ∧ t.queue = s.queue ∧
      Between t next ∧ (s.ahead offset).advance out = some (t.ahead next) := by
  have hheader : s.processHeader out offset = (s.ahead offset).processHeader out 0 := processHeader_place hs.inside
  have hopen : (s.ahead offset).Open := hs.open
  have hadvance : (s.ahead offset).advance out = _ := if_pos hopen
  rw [← hheader] at hadvance
  have hinside : offset ≤ s.queue.length := by
    rcases hs.inside with h | h
    · exact h.le
    · rw [h]
      exact Nat.zero_le _
  have hwait : Follows (finish (s.wait offset offset, .continue, offset, none)) (s.ahead offset) := by
    refine ⟨?_, fun _ => ⟨rfl, hinside, fun _ => rfl⟩⟩
    show s.place _ 0 0 = ((s.place s.queue offset offset).settle).place _ 0 0
    rw [settle_place, hs.settled]
    rfl
  unfold processRound at h
  split at h
  · rename_i hcontinue
    rw [hcontinue] at hadvance
    obtain ⟨rfl, rfl⟩ := Prod.mk.inj h
    refine ⟨?_, by rintro _ _ ⟨⟩⟩
    rintro _ _ _ ⟨⟩
    exact ⟨_, .refl, hwait, .inl hadvance⟩
  · rename_i e hne herror
    obtain ⟨rfl, rfl⟩ := Prod.mk.inj h
    refine ⟨?_, by rintro _ _ ⟨⟩⟩
    rintro _ _ _ ⟨⟩
    have hstep : (s.ahead offset).advance out = some (s.ahead offset).reset := by
      rw [hadvance, herror]
      split
      · rename_i he
        exact absurd (Except.error.inj he) hne
      · rfl
      · rename_i he
        cases he
    refine ⟨_, .single hstep, ?_, .inr (.inr reset_not_open)⟩
    rw [(finish_fatal (processHeader_fatal hout herror hne)).1]
    refine ⟨?_, fun h => absurd h reset_not_open⟩
    show s.reset.place _ 0 0 = s.reset.settle.place _ 0 0
    have hsettle : s.reset.settle = s.reset := by
      have hreset : s.reset.settle = s.settle.reset := by
        unfold settle
        by_cases hfragment : s.connection.fragmentReceived = true
        · rw [if_pos hfragment, if_pos (by exact hfragment)]
        · rw [if_neg hfragment, if_neg (by exact hfragment)]
          rfl
      rw [hreset, hs.settled]
    rw [hsettle]
    rfl
  · rename_i header hok
    rw [hok] at hadvance
    simp only at hadvance
    split at h
    · rename_i hzero
      rw [if_pos hzero] at hadvance
      obtain ⟨rfl, rfl⟩ := Prod.mk.inj h
      refine ⟨?_, by rintro _ _ ⟨⟩⟩
      rintro _ _ _ ⟨⟩
      have hlength := (@processHeader_push σ out (s.ahead offset) [] (by rw [← hheader, hok]; rintro ⟨⟩)).2
      refine ⟨_, .single hadvance, ⟨?_, fun _ => ⟨?_, ?_, fun hoffset => absurd hs.fresh hoffset⟩⟩, .inr (.inl ?_)⟩
      · show s.place _ 0 0 = ((s.place (s.queue.drop _) s.recordOffset s.bytesProcessed).settle).place _ 0 0
        rw [settle_place, hs.settled]
        rfl
      · show (s.queue.drop offset).drop recordHeaderSize =
          (s.queue.drop (offset + recordHeaderSize)).drop s.recordOffset
        rw [hs.fresh, List.drop_zero, List.drop_drop]
      · show s.recordOffset ≤ _
        rw [hs.fresh]
        exact Nat.zero_le _
      · show ((s.ahead offset).queue.drop recordHeaderSize).length < (s.ahead offset).queue.length
        rw [List.length_drop]
        unfold recordHeaderSize at hlength ⊢
        omega
    · rename_i hzero
      rw [if_neg hzero] at hadvance
      split at h
      · rename_i hshort
        have hshort' : (s.ahead offset).queue.length < recordHeaderSize + header.length := by
          show (s.queue.drop offset).length < _
          rw [List.length_drop]
          omega
        rw [if_pos hshort'] at hadvance
        obtain ⟨rfl, rfl⟩ := Prod.mk.inj h
        refine ⟨?_, by rintro _ _ ⟨⟩⟩
        rintro _ _ _ ⟨⟩
        exact ⟨_, .refl, hwait, .inl hadvance⟩
      · rename_i hwhole
        have hwhole' : ¬(s.ahead offset).queue.length < recordHeaderSize + header.length := by
          show ¬(s.queue.drop offset).length < _
          rw [List.length_drop]
          omega
        have hbody : ((s.ahead offset).queue.drop recordHeaderSize).take header.length =
            (s.queue.drop (offset + recordHeaderSize)).take header.length := by
          show ((s.queue.drop offset).drop recordHeaderSize).take _ = _
          rw [List.drop_drop]
        have hrest : (s.ahead offset).queue.drop (recordHeaderSize + header.length) =
            s.queue.drop (offset + recordHeaderSize + header.length) := by
          show (s.queue.drop offset).drop _ = _
          rw [List.drop_drop, Nat.add_assoc]
        have hshorter : (s.queue.drop (offset + recordHeaderSize + header.length)).length <
            (s.ahead offset).queue.length := by
          rw [← hrest, List.length_drop]
          unfold recordHeaderSize at hwhole' ⊢
          omega
        rw [if_neg hwhole', hbody, hrest, ahead, processOne_place] at hadvance
        have hplace : ({ s with bytesProcessed := offset + recordHeaderSize + header.length } : RecordSession σ) =
            s.place s.queue s.recordOffset (offset + recordHeaderSize + header.length) := rfl
        simp only at h
        rw [hplace, processOne_place] at h
        cases hone : s.processOne out header ((s.queue.drop (offset + recordHeaderSize)).take header.length) with
        | mk u result =>
          obtain ⟨outcome, content⟩ := result
          rw [hone] at h hadvance
          cases outcome with
          | stop status =>
            obtain ⟨rfl, rfl⟩ := Prod.mk.inj h
            refine ⟨?_, by rintro _ _ ⟨⟩⟩
            rintro _ _ _ ⟨⟩
            obtain ⟨hcontinue, halert⟩ := processOne_stop hout hone
            obtain ⟨queue, hfinish, hqueue⟩ := @finish_conclude σ
              (u.place s.queue s.recordOffset (offset + recordHeaderSize + header.length)) status
              (offset + recordHeaderSize + header.length) content hcontinue halert
            simp only at hadvance
            rw [conclude_place] at hadvance hfinish hqueue
            refine ⟨_, .single hadvance, ?_, .inr (.inl hshorter)⟩
            rw [hfinish]
            refine ⟨?_, fun hstill => ⟨?_, ?_, fun hoffset => absurd hs.fresh hoffset⟩⟩
            · rw [settle_place, settle_place, settle_place]
              rfl
            · show s.queue.drop (offset + recordHeaderSize + header.length) = queue.drop s.recordOffset
              rw [hs.fresh, List.drop_zero]
              exact (hqueue hstill).symm
            · show s.recordOffset ≤ _
              rw [hs.fresh]
              exact Nat.zero_le _
          | next =>
            obtain ⟨hsettle, hiff⟩ := processOne_next hout hs.settled hone
            have huopen : u.Open := hiff.mpr hs.open
            simp only at h
            split at h
            · rename_i hend
              have hend' : offset + recordHeaderSize + header.length = s.queue.length := hend
              obtain ⟨rfl, rfl⟩ := Prod.mk.inj h
              refine ⟨?_, by rintro _ _ ⟨⟩⟩
              rintro _ _ _ ⟨⟩
              refine ⟨_, .single hadvance, ⟨?_, fun _ => ⟨rfl, ?_, fun _ => rfl⟩⟩, .inr (.inl hshorter)⟩
              · show u.place _ 0 0 = ((u.place s.queue _ _).settle).place _ 0 0
                rw [settle_place, hsettle]
                rfl
              · exact hend'.le
            · rename_i hmore
              have hmore' : offset + recordHeaderSize + header.length ≠ s.queue.length := hmore
              obtain ⟨rfl, rfl⟩ := Prod.mk.inj h
              refine ⟨by rintro _ _ _ ⟨⟩, ?_⟩
              rintro _ _ ⟨⟩
              refine ⟨rfl, by unfold recordHeaderSize; omega, rfl, ⟨?_, huopen, hs.fresh, .inl ?_⟩, hadvance⟩
              · rw [settle_place, hsettle]
              · show offset + recordHeaderSize + header.length < s.queue.length
                omega

/-! ### Calls -/

/-- The loop reads on from where it is. --/
theorem processLoop_reads (hout : out.Regular) {fuel offset : Nat} (hs : Between s offset)
    (hfuel : s.queue.length - offset < fuel) :
    ∃ c', Reads out (s.ahead offset) c' ∧ Follows (finish (s.processLoop out fuel offset offset)) c' ∧
      Progress out (s.ahead offset) c' := by
  induction fuel generalizing s offset with
  | zero => exact absurd hfuel (Nat.not_lt_zero _)
  | succ fuel ih =>
    have hresume : s.resume offset offset = (s, offset, offset) := if_neg fun h => h hs.fresh
    unfold processLoop
    rw [hresume]
    dsimp only
    cases hround : s.processRound out offset offset with
    | mk t round =>
      obtain ⟨hleave, hgoOn⟩ := processRound_reads hout hs hround
      cases round with
      | leave status processed content => exact hleave status processed content rfl
      | goOn next processed =>
        obtain ⟨rfl, hnext, hqueue, hbetween, hadvance⟩ := hgoOn next processed rfl
        have hmore : processed < s.queue.length := by
          rcases hbetween.inside with h | h
          · rwa [hqueue] at h
          · omega
        obtain ⟨c', hreads, hfollows, -⟩ := ih hbetween (by rw [hqueue]; omega)
        refine ⟨c', .head hadvance hreads, hfollows, .inr (.inl ?_)⟩
        refine lt_of_le_of_lt hreads.suffix.length_le ?_
        show (t.queue.drop processed).length < (s.queue.drop offset).length
        rw [List.length_drop, List.length_drop, hqueue]
        omega

/-- When the session may be called: it has not ended, and without a packet it may only be called where its place in the
    queue is not at the end of it. --/
def Ready (s : RecordSession σ) (packet : List UInt8) : Prop :=
  s.Open ∧ (packet = [] → s.recordOffset = 0 ∨ s.recordOffset < s.queue.length)

instance (s : RecordSession σ) (packet : List UInt8) : Decidable (s.Ready packet) :=
  inferInstanceAs (Decidable (_ ∧ (_ → _)))

/-- What the session has read so far. --/
def view (s : RecordSession σ) : RecordSession σ := s.settle.ahead s.recordOffset

theorem settle_queue : s.settle.queue = s.queue := by
  unfold settle
  split <;> rfl

theorem settle_kept : s.settle.machine = s.machine ∧ s.settle.returned = s.returned ∧ s.settle.reports = s.reports := by
  unfold settle
  split <;> exact ⟨rfl, rfl, rfl⟩

theorem Follows.view (h : Follows s c) (hopen : s.Open) : c = s.view := by
  rw [h.same, (h.rest hopen).1, RecordSession.view, ahead, settle_queue]

/-- A call reads on, with the octets of its packet behind those the session had. --/
theorem receiveRecords_reads (hout : out.Regular) {packet : List UInt8} (hready : Ready s packet) (h : Follows s c) :
    ∃ c', Reads out (c.push packet) c' ∧ Follows (s.receiveRecords out packet) c' ∧
      Progress out (c.push packet) c' := by
  obtain ⟨hopen, hplace⟩ := hready
  obtain ⟨hrest, hinside, hprocessed⟩ := h.rest hopen
  rw [receiveRecords_finish hopen.1]
  -- the session the loop starts with, and its place in the queue
  have hsettle : (if ({ s with queue := s.queue ++ packet } : RecordSession σ).connection.fragmentReceived = true then
      ({ s with queue := s.queue ++ packet } : RecordSession σ)
      else { s with queue := s.queue ++ packet, packetBuffer := [] }) =
      s.settle.place (s.queue ++ packet) s.recordOffset s.bytesProcessed := settle_place (s := s)
  have hpush : c.push packet = s.settle.place ((s.queue ++ packet).drop s.recordOffset) 0 0 := by
    rw [push_place, h.same, hrest, List.drop_append_of_le_length hinside]
    rfl
  have hbetween : ∀ processed, Between (s.settle.place (s.queue ++ packet) 0 processed) s.recordOffset := by
    intro processed
    refine ⟨by rw [settle_place, settle_settle], settle_open.mpr hopen, rfl, ?_⟩
    show s.recordOffset < (s.queue ++ packet).length ∨ _
    rw [List.length_append]
    by_cases hempty : packet = []
    · rcases hplace hempty with hzero | hless
      · exact .inr hzero
      · exact .inl (by omega)
    · have hpos := List.length_pos_iff.mpr hempty
      exact .inl (by omega)
  have hloop : s.processRecord out packet = processLoop out ((s.queue ++ packet).length + 1)
      (s.settle.place (s.queue ++ packet) 0 (if s.recordOffset = 0 then s.bytesProcessed else 0))
      s.recordOffset s.recordOffset := by
    have hstart : s.processRecord out packet = processLoop out ((s.queue ++ packet).length + 1)
        (s.settle.place (s.queue ++ packet) s.recordOffset s.bytesProcessed) 0 0 := by
      unfold processRecord
      simp only
      rw [hsettle]
      rfl
    rw [hstart]
    by_cases hzero : s.recordOffset = 0
    · rw [if_pos hzero, hzero]
    · rw [if_neg hzero, hprocessed hzero]
      have hresume : (s.settle.place (s.queue ++ packet) s.recordOffset s.recordOffset).resume 0 0 =
          (s.settle.place (s.queue ++ packet) 0 0).resume s.recordOffset s.recordOffset :=
        (if_pos hzero).trans (if_neg fun h => h rfl).symm
      unfold processLoop
      rw [hresume]
  rw [hloop, hpush]
  exact processLoop_reads hout (hbetween _) (by show (s.queue ++ packet).length - _ < _; omega)

/-! ### Runs of calls -/

/-- Calls that bring a stream read it. --/
theorem run_reads (hout : out.Regular) {s₀ c₀ : RecordSession σ} {packets : List (List UInt8)}
    (h : Run (receiveRecords out) Ready s₀ packets s) (hstart : Follows s₀ c₀) :
    ∃ c, Reads out (c₀.push packets.flatten) c ∧ Follows s c := by
  refine h.invariant (P := fun packets s => ∃ c, Reads out (c₀.push packets.flatten) c ∧ Follows s c) ?_ ?_
  · refine ⟨c₀, ?_, hstart⟩
    have hpush : c₀.push ([] : List (List UInt8)).flatten = c₀ := by
      show ({ c₀ with queue := c₀.queue ++ [] } : RecordSession σ) = c₀
      rw [List.append_nil]
    rw [hpush]
    exact .refl
  · rintro packets s packet ⟨c, hreads, hfollows⟩ hready
    obtain ⟨c', hreads', hfollows', -⟩ := receiveRecords_reads hout hready hfollows
    refine ⟨c', ?_, hfollows'⟩
    have hpush : c₀.push (packets ++ [packet]).flatten = (c₀.push packets.flatten).push packet := by
      show ({ c₀ with queue := _ } : RecordSession σ) = { c₀ with queue := _ }
      rw [List.flatten_append, List.flatten_singleton, ← List.append_assoc]
      rfl
    rw [hpush]
    exact (hreads.push).trans hreads'

/-- Nothing more can be read before more octets come, or ever. --/
def Drained (out : RecordOutside σ) (s : RecordSession σ) : Prop := s.Open → s.view.advance out = none

theorem Follows.drained (h : Follows s c) (hs : Drained out s) : c.advance out = none := by
  by_cases hopen : s.Open
  · rw [h.view hopen]
    exact hs hopen
  · refine if_neg ?_
    rw [h.same]
    exact fun hc => hopen (settle_open.mp hc)

/-- A session that is not drained may be called without a packet. --/
theorem ready_of_not_drained (hs : ¬Drained out s) (hinside : s.Open → s.recordOffset ≤ s.queue.length) :
    Ready s [] := by
  obtain ⟨hopen, hmore⟩ := Classical.not_imp.mp hs
  refine ⟨hopen, fun _ => ?_⟩
  by_contra hend
  obtain ⟨-, hnot⟩ := not_or.mp hend
  have hlength : s.queue.length = s.recordOffset := by
    have := hinside hopen
    omega
  apply hmore
  have hqueue : s.view.queue = [] := by
    show s.settle.queue.drop s.recordOffset = []
    rw [settle_queue, ← hlength, List.drop_length]
  unfold advance
  split
  · have hheader : s.view.processHeader out 0 = .error .continue := by
      unfold processHeader
      rw [extract, if_pos (.inr rfl), hqueue]
      rfl
    rw [hheader]
  · rfl

/-- Calls without a packet drain it. --/
theorem run_drains (hout : out.Regular) {s₀ c₀ : RecordSession σ} {packets : List (List UInt8)}
    (h : Run (receiveRecords out) Ready s₀ packets s) (hstart : Follows s₀ c₀) :
    ∃ calls t, Run (receiveRecords out) Ready s₀ (packets ++ List.replicate calls []) t ∧ Drained out t := by
  obtain ⟨c, -, hfollows⟩ := run_reads hout h hstart
  induction hn : c.queue.length using Nat.strong_induction_on generalizing s c packets with
  | _ n ih =>
    by_cases hdrained : Drained out s
    · exact ⟨0, s, by simpa using h, hdrained⟩
    · have hready := ready_of_not_drained hdrained fun hopen => (hfollows.rest hopen).2.1
      obtain ⟨c', -, hfollows', hprogress⟩ := receiveRecords_reads hout hready hfollows
      have hnext := h.next hready
      have hpush : c.push [] = c := by
        show ({ c with queue := c.queue ++ [] } : RecordSession σ) = c
        rw [List.append_nil]
      rw [hpush] at hprogress
      rcases hprogress with hnone | hless | hclosed
      · obtain ⟨hopen, hmore⟩ := Classical.not_imp.mp hdrained
        rw [hfollows.view hopen] at hnone
        exact absurd hnone hmore
      · obtain ⟨calls, t, hrun, ht⟩ := ih c'.queue.length (hn ▸ hless) hnext c' hfollows' rfl
        refine ⟨calls + 1, t, ?_, ht⟩
        rw [List.replicate_succ, ← List.singleton_append, ← List.append_assoc]
        exact hrun
      · refine ⟨1, _, hnext, fun hopen => absurd ?_ hclosed⟩
        rw [hfollows'.same]
        exact settle_open.mpr hopen

/-- A fresh session has read nothing. --/
theorem Follows.start (hoffset : s.recordOffset = 0) : Follows s s.view := by
  refine ⟨?_, fun _ => ⟨?_, ?_, fun h => absurd hoffset h⟩⟩
  · rfl
  · show s.settle.queue.drop s.recordOffset = _
    rw [settle_queue]
  · rw [hoffset]
    exact Nat.zero_le _

/-- A record of TLS 1.3 with no octets, and one with two. --/
def emptyRecord : List UInt8 := [23, 3, 3, 0, 3, 9, 0, 23]

def secondRecord : List UInt8 := [23, 3, 3, 0, 5, 9, 1, 104, 105, 23]

theorem plainRecords_regular : plainRecords.Regular where
  version := by rintro _ _ _ ⟨⟩
  decrypt := by
    intro keys number type body e h
    simp only [plainRecords] at h
    split at h
    · split at h
      · cases h
      · obtain rfl := Except.error.inj h
        decide
    · obtain rfl := Except.error.inj h
      decide
  handshake _ _ _ := ⟨by rintro ⟨⟩, by rintro ⟨⟩⟩
  fragment := by rintro _ _ _ ⟨⟩

end RecordSession

end Netxduo.Tls
