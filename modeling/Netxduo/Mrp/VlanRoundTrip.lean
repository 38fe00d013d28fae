import Netxduo.Mrp.VlanMessage

/-! What becomes of a packed message at the peer: its last vector is taken for one that does not fit. And the reader stays
    in the packet, and ends. -/

namespace Netxduo.Mrp

/-! ### The attributes of a participant -/

/-- A list of attributes as the calls leave it: attributes are found or new, their state machines run, and they are
    evicted. --/
inductive Reachable : List Attribute → Prop
  | start : Reachable []
  | get {attributes attributes' : List Attribute} {vlanId : UInt16} :
      Reachable attributes → attributeGet attributes vlanId = some attributes' → Reachable attributes'
  | change {attributes attributes' : List Attribute} :
      Reachable attributes → attributes'.map (·.vlanId) = attributes.map (·.vlanId) → Reachable attributes'
  | evict {attributes : List Attribute} (i : Nat) : Reachable attributes → Reachable (attributes.eraseIdx i)

theorem length_attributeInsert (a : Attribute) (attributes : List Attribute) :
    (attributeInsert a attributes).length = attributes.length + 1 := by
  induction attributes with
  | nil => rfl
  | cons b rest ih =>
    unfold attributeInsert
    split
    · rfl
    · rw [List.length_cons, ih, List.length_cons]

theorem Reachable.length_le {attributes : List Attribute} (h : Reachable attributes) :
    attributes.length ≤ attributeArrayMaxSize := by
  induction h with
  | start => exact Nat.zero_le _
  | @get attributes attributes' vlanId _ hget ih =>
    unfold attributeGet at hget
    split at hget
    · cases hget
      exact ih
    · split at hget
      · cases hget
      · cases hget
        rw [length_attributeInsert]
        omega
  | @change attributes attributes' _ hsame ih =>
    have hlength := congrArg List.length hsame
    rw [List.length_map, List.length_map] at hlength
    rwa [hlength]
  | evict i _ ih => exact Nat.le_trans (List.length_eraseIdx_le _ _) ih

/-! ### What is packed -/

theorem eventCycles_eq (number : UInt16) : eventCycles number = (number.toNat + 2) / 3 := by
  unfold eventCycles
  rw [UInt16.toNat_div]
  by_cases h : number % 3 = 0
  · have hmod := congrArg UInt16.toNat h
    rw [UInt16.toNat_mod] at hmod
    rw [if_pos h]
    simp at hmod ⊢
    omega
  · have hmod : number.toNat % 3 ≠ 0 := fun hzero => h (UInt16.toNat_inj.mp (by rw [UInt16.toNat_mod]; exact hzero))
    rw [if_neg h]
    simp
    omega

theorem toNat_pred {number : UInt16} (h : 0 < number.toNat) : (number - 1).toNat = number.toNat - 1 := by
  have := number.toNat_lt
  rw [UInt16.toNat_sub_of_le]
  · rfl
  · exact UInt16.le_iff_toNat_le.mpr h

theorem vectorValues_le (first : Attribute) (rest : List Attribute) (vlanId number : UInt16)
    (h : number.toNat + rest.length < 65536) :
    number.toNat ≤ (vectorValues first vlanId number rest).toNat ∧
      (vectorValues first vlanId number rest).toNat ≤ number.toNat + rest.length := by
  induction rest generalizing vlanId number with
  | nil => exact ⟨Nat.le_refl _, Nat.le_refl _⟩
  | cons b rest ih =>
    unfold vectorValues
    rw [List.length_cons] at h ⊢
    split
    · split
      · omega
      · have hnext : (number + 1).toNat = number.toNat + 1 := by
          rw [UInt16.toNat_add]
          exact Nat.mod_eq_of_lt (by simp; omega)
        have hrest := ih (vlanId + 1) (number + 1) (by omega)
        omega
    · omega

/-- An octet of events takes three attributes, or what is left of the vector. --/
theorem packThree_spec {number : UInt16} {attributes : List Attribute} (l : Locals) (hpos : 0 < number.toNat)
    (hle : number.toNat ≤ attributes.length) :
    ∃ number' attributes' l', packThree number attributes l = some (number', attributes', l') ∧
      number'.toNat = number.toNat - 3 ∧ attributes'.length = attributes.length - min 3 number.toNat := by
  have hzero : ∀ n : UInt16, n = 0 ↔ n.toNat = 0 := fun n => UInt16.toNat_inj.symm
  have hone := toNat_pred hpos
  unfold packThree
  cases attributes with
  | nil => rw [List.length_nil] at hle; omega
  | cons a attributes =>
    rw [List.length_cons] at hle
    by_cases h1 : number - 1 = 0
    · simp only [eventNext, Option.bind_eq_bind, Option.bind_some, if_pos h1]
      have := (hzero _).mp h1
      exact ⟨_, _, _, rfl, by omega, by rw [List.length_cons]; omega⟩
    · have h1' : 0 < (number - 1).toNat := Nat.pos_of_ne_zero fun h => h1 ((hzero _).mpr h)
      have htwo := toNat_pred h1'
      cases attributes with
      | nil => rw [List.length_nil] at hle; omega
      | cons b attributes =>
        rw [List.length_cons] at hle
        by_cases h2 : number - 1 - 1 = 0
        · simp only [eventNext, Option.bind_eq_bind, Option.bind_some, if_neg h1, if_pos h2]
          have := (hzero _).mp h2
          exact ⟨_, _, _, rfl, by omega, by rw [List.length_cons, List.length_cons]; omega⟩
        · have h2' : 0 < (number - 1 - 1).toNat := Nat.pos_of_ne_zero fun h => h2 ((hzero _).mpr h)
          have hthree := toNat_pred h2'
          cases attributes with
          | nil => rw [List.length_nil] at hle; omega
          | cons c attributes =>
            simp only [eventNext, Option.bind_eq_bind, Option.bind_some, if_neg h1, if_neg h2]
            refine ⟨_, _, _, rfl, by omega, ?_⟩
            rw [List.length_cons, List.length_cons, List.length_cons]
            omega

theorem packEvents_spec (cycles : Nat) {number : UInt16} {attributes : List Attribute} (l : Locals) (written : List UInt8)
    (hcycles : cycles = (number.toNat + 2) / 3) (hle : number.toNat ≤ attributes.length) :
    ∃ attributes' l' events, packEvents cycles number attributes l written = some (attributes', l', written ++ events) ∧
      events.length = cycles ∧ attributes'.length = attributes.length - number.toNat := by
  induction cycles generalizing number attributes l written with
  | zero => exact ⟨attributes, l, [], by rw [List.append_nil]; rfl, rfl, by omega⟩
  | succ cycles ih =>
    obtain ⟨number', attributes', l', hthree, hnumber, hlength⟩ := packThree_spec l (by omega) hle
    obtain ⟨attributes'', l'', events, hrest, hevents, hleft⟩ :=
      @ih number' attributes' l' (written ++ [threePacked l']) (by omega) (by omega)
    refine ⟨attributes'', l'', threePacked l' :: events, ?_, by rw [List.length_cons, hevents], by omega⟩
    unfold packEvents
    rw [hthree]
    exact hrest.trans (by rw [List.append_assoc]; rfl)

/-- The octets of a vector: its header is not that of an end mark, and counts its events. --/
def IsVector (octets : List UInt8) : Prop :=
  ∃ upper lower vlanUpper vlanLower events, octets = upper :: lower :: vlanUpper :: vlanLower :: events ∧
    wordOf upper lower ≠ 0 ∧ events.length = eventCycles (wordOf upper lower &&& 0x1FFF)

theorem wordOf_octets (value : UInt16) : wordOf (value >>> 8).toUInt8 (value &&& 0xFF).toUInt8 = value := by
  apply UInt16.toNat_inj.mp
  have hlt := value.toNat_lt
  unfold wordOf
  rw [UInt16.toNat_or, UInt16.toNat_shiftLeft, UInt8.toNat_toUInt16, UInt8.toNat_toUInt16, UInt16.toNat_toUInt8,
    UInt16.toNat_toUInt8, UInt16.toNat_shiftRight, UInt16.toNat_and]
  have h8 : (8 : UInt16).toNat % 16 = 8 := rfl
  have hmask : (0xFF : UInt16).toNat = 2 ^ 8 - 1 := rfl
  rw [h8, hmask, Nat.and_two_pow_sub_one_eq_mod, Nat.shiftRight_eq_div_pow]
  rw [Nat.mod_eq_of_lt (show value.toNat / 2 ^ 8 < 2 ^ 8 by omega), Nat.mod_mod,
    Nat.mod_eq_of_lt (show (value.toNat / 2 ^ 8) <<< 8 < 2 ^ 16 by rw [Nat.shiftLeft_eq]; omega),
    ← Nat.shiftLeft_add_eq_or_of_lt (by omega), Nat.shiftLeft_eq]
  omega

theorem header_number {leaveAll number : UInt16} (h : number.toNat < 8192) :
    (leaveAll <<< 13 ||| number) &&& 0x1FFF = number := by
  apply UInt16.toNat_inj.mp
  rw [UInt16.toNat_and, UInt16.toNat_or, UInt16.toNat_shiftLeft]
  have h13 : (13 : UInt16).toNat % 16 = 13 := rfl
  have hmask : (0x1FFF : UInt16).toNat = 2 ^ 13 - 1 := rfl
  rw [h13, hmask, Nat.and_two_pow_sub_one_eq_mod, Nat.or_mod_two_pow, Nat.mod_mod_of_dvd _ (by decide),
    Nat.shiftLeft_eq, Nat.mul_mod_left, Nat.zero_or]
  exact Nat.mod_eq_of_lt h

/-- What the loop writes is a vector for every run of attributes, and none where there is no action. --/
theorem packLoop_spec (leaveAll : Bool) (fuel : Nat) {attributes : List Attribute} (l : Locals) (find : Bool)
    (written : List UInt8) (hfuel : attributes.length ≤ fuel) (hlength : attributes.length < 8192) :
    ∃ find' vectors, packLoop leaveAll fuel attributes l find written = some (find', written ++ vectors.flatten) ∧
      (∀ v ∈ vectors, IsVector v) ∧ (vectors = [] ↔ ∀ a ∈ attributes, a.action = .null) ∧
      (find' = true ↔ find = true ∨ vectors ≠ []) := by
  induction fuel generalizing attributes l find written with
  | zero =>
    cases List.length_eq_zero_iff.mp (Nat.le_zero.mp hfuel)
    exact ⟨find, [], by simp [packLoop], by simp, by simp, by simp⟩
  | succ fuel ih =>
    cases attributes with
    | nil => exact ⟨find, [], by simp [packLoop], by simp, by simp, by simp⟩
    | cons a rest =>
      rw [List.length_cons] at hfuel hlength
      unfold packLoop
      by_cases hnull : a.action = .null
      · obtain ⟨find', vectors, hloop, hvectors, hnone, hfind⟩ :=
          @ih rest l find written (by omega) (by omega)
        rw [if_pos hnull]
        exact ⟨find', vectors, hloop, hvectors, by simp [hnone, hnull], hfind⟩
      · rw [if_neg hnull]
        obtain ⟨hmin, hmax⟩ := vectorValues_le a rest (a.vlanId + 1) 1 (by simp; omega)
        have hone : (1 : UInt16).toNat = 1 := rfl
        rw [hone] at hmin hmax
        dsimp only
        generalize hnumber : vectorValues a (a.vlanId + 1) 1 rest = number at hmin hmax ⊢
        generalize hlocals : (if leaveAll = true then { l with leaveAllEvent := 1 } else l) = locals
        obtain ⟨attributes', l', events, hpacked, hevents, hleft⟩ :=
          packEvents_spec (eventCycles number) locals
            (written ++ octetsOf (locals.leaveAllEvent <<< 13 ||| number) ++ octetsOf a.vlanId) (eventCycles_eq number)
            (show _ ≤ (a :: rest).length by rw [List.length_cons]; omega)
        rw [List.length_cons] at hleft
        obtain ⟨find', vectors, hloop, hvectors, -, hfind⟩ :=
          @ih attributes' l' true (written ++ octetsOf (locals.leaveAllEvent <<< 13 ||| number) ++ octetsOf a.vlanId ++ events)
            (by omega) (by omega)
        have hnum : (locals.leaveAllEvent <<< 13 ||| number) &&& 0x1FFF = number := header_number (by omega)
        refine ⟨find', (octetsOf (locals.leaveAllEvent <<< 13 ||| number) ++ octetsOf a.vlanId ++ events) :: vectors,
          ?_, ?_, by simp [hnull], by simp [hfind]⟩
        · rw [hpacked]
          exact hloop.trans (by simp)
        · intro v hv
          rcases List.mem_cons.mp hv with rfl | hv
          · refine ⟨_, _, _, _, events, rfl, ?_, ?_⟩
            · rw [wordOf_octets]
              intro hzero
              rw [hzero] at hnum
              have : number.toNat = 0 := by rw [← hnum]; rfl
              omega
            · rw [wordOf_octets, hnum, hevents]
          · exact hvectors v hv

/-- Where there is no action, there is no packet. --/
theorem pack_of_null {leaveAll : Bool} {l : Locals} {attributes : List Attribute} (h : ∀ a ∈ attributes, a.action = .null) :
    pack leaveAll l attributes = none := by
  have hloop : ∀ fuel attributes written, attributes.length ≤ fuel → (∀ a ∈ attributes, a.action = Action.null) →
      packLoop leaveAll fuel attributes l false written = some (false, written) := by
    intro fuel attributes written hfuel hnull
    induction attributes generalizing fuel with
    | nil => cases fuel <;> rfl
    | cons a rest ih =>
      cases fuel with
      | zero => cases hfuel
      | succ fuel =>
        unfold packLoop
        rw [if_pos (hnull a List.mem_cons_self)]
        exact ih fuel (Nat.le_of_succ_le_succ hfuel) fun b hb => hnull b (List.mem_cons_of_mem _ hb)
  unfold pack
  dsimp only
  rw [hloop _ _ _ (Nat.le_refl _) h]
  rfl

/-- A packet: its start, its vectors, and two end marks. --/
theorem pack_spec (leaveAll : Bool) (l : Locals) {attributes : List Attribute} (h : Reachable attributes) :
    (∀ a ∈ attributes, a.action = .null) ∧ pack leaveAll l attributes = none ∨
    ∃ vectors, vectors ≠ [] ∧ (∀ v ∈ vectors, IsVector v) ∧
      pack leaveAll l attributes = some (protocolVersion :: attributeTypeVlanId :: attributeLengthVlanId ::
        (vectors.flatten ++ [0, 0, 0, 0])) := by
  have hlength : attributes.length < 8192 := Nat.lt_of_le_of_lt h.length_le (by decide)
  obtain ⟨find, vectors, hloop, hvectors, hnone, hfind⟩ :=
    packLoop_spec leaveAll attributes.length l false [protocolVersion, attributeTypeVlanId, attributeLengthVlanId]
      (Nat.le_refl _) hlength
  unfold pack
  dsimp only
  rw [hloop]
  by_cases hempty : vectors = []
  · have hnot : find = false := by
      rw [← Bool.not_eq_true, hfind]
      simp [hempty]
    exact .inl ⟨hnone.mp hempty, by simp [hnot]⟩
  · have hyes : find = true := hfind.mpr (.inr hempty)
    exact .inr ⟨vectors, hempty, hvectors, by simp [hyes]⟩

/-! ### What is read -/

section reader
variable {eventProcess : List Attribute → UInt16 → UInt8 → List Attribute}

/-- The reader fails. --/
def Outcome.Failed (o : Outcome) : Prop := ∃ status peer, o = .returned status peer ∧ status ≠ .success

/-- The events of a vector are read to their end, or the reader fails. --/
theorem eventLoop_cases (eventProcess : List Attribute → UInt16 → UInt8 → List Attribute) (leaveAll : UInt16) (events tail : List UInt8) (left : Nat) (v : Values) :
    (∃ peer, eventLoop eventProcess leaveAll events.length left (events ++ tail) v = .next (left - events.length) tail peer) ∨
      (eventLoop eventProcess leaveAll events.length left (events ++ tail) v).Failed := by
  induction events generalizing left v with
  | nil => exact .inl ⟨v.peer, rfl⟩
  | cons three events ih =>
    rw [List.length_cons, List.cons_append]
    unfold eventLoop
    dsimp only
    split
    · split
      · exact .inr ⟨_, _, rfl, by decide⟩
      · rename_i v' _
        rcases ih (left - 1) v' with ⟨peer, hnext⟩ | hfailed
        · exact .inl ⟨peer, by rw [hnext, Nat.sub_sub, Nat.add_comm 1]⟩
        · exact .inr hfailed
    · exact .inr ⟨_, _, rfl, by decide⟩

/-- Before the end marks no vector is the last: the loop over them fails. --/
theorem vectorLoop_failed {vectors : List (List UInt8)} (hne : vectors ≠ []) (hvectors : ∀ v ∈ vectors, IsVector v)
    {fuel : Nat} (hfuel : vectors.flatten.length + 4 ≤ fuel) (peer : Peer) :
    (vectorLoop eventProcess fuel (vectors.flatten.length + 4) (vectors.flatten ++ [0, 0, 0, 0]) peer).Failed := by
  induction vectors generalizing fuel peer with
  | nil => exact absurd rfl hne
  | cons v vectors ih =>
    obtain ⟨upper, lower, vlanUpper, vlanLower, events, rfl, hheader, hevents⟩ := hvectors v List.mem_cons_self
    cases fuel with
    | zero => omega
    | succ fuel =>
      rw [List.flatten_cons] at hfuel ⊢
      simp only [List.length_append, List.length_cons] at hfuel ⊢
      unfold vectorLoop
      rw [if_pos (by unfold endMarkSize; omega)]
      simp only [List.cons_append]
      rw [if_neg hheader]
      split
      · exact ⟨_, _, rfl, by decide⟩
      · rename_i hroom
        have hmore : vectors ≠ [] := by
          rintro rfl
          rw [List.flatten_nil, List.length_nil, hevents] at hroom
          unfold endMarkSize at hroom
          omega
        rw [← hevents, List.append_assoc]
        rcases eventLoop_cases eventProcess (wordOf upper lower >>> 13) events
          (vectors.flatten ++ [0, 0, 0, 0]) (events.length + 1 + 1 + 1 + 1 + vectors.flatten.length + 4 - 4)
          ⟨peer, wordOf upper lower &&& 0x1FFF, wordOf vlanUpper vlanLower⟩ with ⟨peer', hnext⟩ | ⟨status, peer', hfailed, hstatus⟩
        · rw [hnext]
          have hleft : events.length + 1 + 1 + 1 + 1 + vectors.flatten.length + 4 - 4 - events.length =
              vectors.flatten.length + 4 := by omega
          rw [hleft]
          exact ih hmore (fun v hv => hvectors v (List.mem_cons_of_mem _ hv)) (by omega) peer'
        · rw [hfailed]
          exact ⟨status, peer', rfl, hstatus⟩

/-- A packed message is not read. --/
theorem unpack_failed {vectors : List (List UInt8)} (hne : vectors ≠ []) (hvectors : ∀ v ∈ vectors, IsVector v)
    {p : Packet} (hoctets : p.octets = protocolVersion :: attributeTypeVlanId :: attributeLengthVlanId ::
      (vectors.flatten ++ [0, 0, 0, 0])) (hlength : p.length = p.octets.length) (peer : Peer) :
    (unpack eventProcess p peer).Failed := by
  rw [hoctets] at hlength
  simp only [List.length_cons, List.length_append, List.length_nil] at hlength
  unfold unpack
  rw [hoctets, hlength]
  dsimp only
  rw [if_neg (by decide)]
  unfold messageLoop
  rw [if_pos (by unfold endMarkSize; omega)]
  dsimp only
  rw [if_neg (by decide), if_neg (by decide)]
  obtain ⟨status, peer', hfailed, hstatus⟩ := @vectorLoop_failed eventProcess _ hne hvectors _
    (show vectors.flatten.length + 4 ≤ vectors.flatten.length + 4 + 1 + 1 by omega) peer
  have hleft : vectors.flatten.length + (0 + 1 + 1 + 1 + 1) + 1 + 1 + 1 - 1 - 2 = vectors.flatten.length + 4 := by omega
  have hfuel : vectors.flatten.length + (0 + 1 + 1 + 1 + 1) + 1 + 1 + 1 - 1 = vectors.flatten.length + 4 + 1 + 1 := by omega
  rw [hleft, hfuel, hfailed]
  exact ⟨status, peer', rfl, hstatus⟩

/-- The loop over the vectors stays in the packet, and ends. --/
theorem vectorLoop_inside {fuel left : Nat} {rest : List UInt8} (hleft : rest.length = left) (hfuel : left ≤ fuel)
    (peer : Peer) :
    (∃ left' rest' peer', vectorLoop eventProcess fuel left rest peer = .next left' rest' peer' ∧
      rest'.length = left' ∧ left' ≤ left) ∨
    ∃ status peer', vectorLoop eventProcess fuel left rest peer = .returned status peer' := by
  induction fuel generalizing left rest peer with
  | zero =>
    unfold vectorLoop
    rw [if_neg (by omega)]
    exact .inl ⟨_, _, _, rfl, hleft, Nat.le_refl _⟩
  | succ fuel ih =>
    unfold vectorLoop
    split
    · rename_i hmore
      unfold endMarkSize at hmore
      obtain ⟨upper, lower, vlanUpper, vlanLower, rest, rfl⟩ : ∃ a b c d rest', rest = a :: b :: c :: d :: rest' := by
        rcases rest with _ | ⟨a, _ | ⟨b, _ | ⟨c, _ | ⟨d, rest⟩⟩⟩⟩
        · rw [List.length_nil] at hleft; omega
        · simp at hleft; omega
        · simp at hleft; omega
        · simp at hleft; omega
        · exact ⟨a, b, c, d, rest, rfl⟩
      simp only [List.length_cons] at hleft
      dsimp only
      split
      · exact .inr ⟨_, _, rfl⟩
      · split
        · exact .inr ⟨_, _, rfl⟩
        · rename_i hroom
          unfold endMarkSize at hroom
          generalize hcycles : eventCycles (wordOf upper lower &&& 0x1FFF) = cycles at hroom ⊢
          have htake : (rest.take cycles).length = cycles := List.length_take_of_le (by omega)
          have hcases := eventLoop_cases eventProcess (wordOf upper lower >>> 13)
            (rest.take cycles) (rest.drop cycles) (left - 4) ⟨peer, wordOf upper lower &&& 0x1FFF, wordOf vlanUpper vlanLower⟩
          rw [List.take_append_drop, htake] at hcases
          rcases hcases with ⟨peer', hnext⟩ | ⟨status, peer', hfailed, -⟩
          · rw [hnext]
            have hdrop : (rest.drop cycles).length = left - 4 - cycles := by
              rw [List.length_drop]
              omega
            rcases ih hdrop (by omega) peer' with ⟨left', rest', peer'', hloop, hrest, hless⟩ | hreturned
            · exact .inl ⟨left', rest', peer'', hloop, hrest, by omega⟩
            · exact .inr hreturned
          · rw [hfailed]
            exact .inr ⟨_, _, rfl⟩
    · exact .inl ⟨_, _, _, rfl, hleft, Nat.le_refl _⟩

theorem messageLoop_inside {fuel left : Nat} {rest : List UInt8} (hleft : rest.length = left) (hfuel : left ≤ fuel)
    (peer : Peer) : ∃ status peer', messageLoop eventProcess fuel left rest peer = .returned status peer' := by
  induction fuel generalizing left rest peer with
  | zero =>
    unfold messageLoop
    rw [if_neg (by omega)]
    exact ⟨_, _, rfl⟩
  | succ fuel ih =>
    unfold messageLoop
    split
    · rename_i hmore
      unfold endMarkSize at hmore
      rcases rest with _ | ⟨attributeType, _ | ⟨attributeLength, rest⟩⟩
      · rw [List.length_nil] at hleft; omega
      · simp at hleft; omega
      · simp only [List.length_cons] at hleft
        dsimp only
        split
        · exact ⟨_, _, rfl⟩
        · split
          · exact ⟨_, _, rfl⟩
          · rcases @vectorLoop_inside eventProcess left (left - 2) rest (by omega)
              (by omega) peer with ⟨left', rest', peer', hloop, hrest, hless⟩ | ⟨status, peer', hreturned⟩
            · rw [hloop]
              exact ih (by rw [List.length_drop, hrest]) (by unfold endMarkSize; omega) peer'
            · rw [hreturned]
              exact ⟨_, _, rfl⟩
    · exact ⟨_, _, rfl⟩

/-- The reader of a packet of one buffer ends; an octet outside the packet is read where the packet has none. --/
theorem unpack_inside {p : Packet} (hlength : p.length = p.octets.length) (peer : Peer) :
    (∃ status peer', unpack eventProcess p peer = .returned status peer') ↔ p.octets ≠ [] := by
  unfold unpack
  cases hoctets : p.octets with
  | nil => simp
  | cons version rest =>
    simp only [ne_eq, reduceCtorEq, not_false_eq_true, iff_true]
    split
    · exact ⟨_, _, rfl⟩
    · rw [hoctets, List.length_cons] at hlength
      exact messageLoop_inside (by omega) (by omega) peer

end reader

/-! ### The round trip -/

/-- The peer has read the message: each VLAN with an action has had its event, no other has had one, and LeaveAll has come
    where it was signalled. --/
structure Restored (leaveAll : Bool) (attributes : List Attribute) (delivered : List (UInt16 × UInt8)) : Prop where
  events : (delivered.filter fun d => d.2 != eventRla).Perm
    ((attributes.filter fun a => a.action != .null).map fun a => (a.vlanId, attributeEventGet a 0))
  leaveAll : (∃ d ∈ delivered, d.2 = eventRla) ↔ leaveAll = true

/-- The peer's array has slots for the attributes that it does not know. --/
def Room (attributes peer : List Attribute) : Prop :=
  Reachable peer ∧
    peer.length + (attributes.filter fun a => !attributeFind a.vlanId peer).length ≤ attributeArrayMaxSize

theorem fits_whole (octets : List UInt8) : octets.length ≤ octets.length := Nat.le_refl _

/-- What is packed arrives, whatever the machine held in the variables of the packer. --/
def RoundTrip (eventProcess : List Attribute → UInt16 → UInt8 → List Attribute) (attributes : List Attribute) : Prop :=
  ∀ leaveAll l octets, pack leaveAll l attributes = some octets → ∀ peer, Room attributes peer →
    ∃ peer', unpack eventProcess ⟨octets, octets.length, fits_whole octets⟩ ⟨peer, []⟩ = .returned .success peer' ∧
      Restored leaveAll attributes peer'.delivered

/-- The reader of a packet ends, and reads no octet outside it. --/
def Inside (eventProcess : List Attribute → UInt16 → UInt8 → List Attribute) (p : Packet) (peer : Peer) : Prop :=
  ∃ status peer', unpack eventProcess p peer = .returned status peer'

/-- One VLAN that is joined and registered. --/
def oneVlan : List Attribute := [⟨100, .sj, .in_⟩]

theorem reachable_oneVlan : Reachable oneVlan :=
  @Reachable.change [⟨100, .null, .mt⟩] _ (@Reachable.get _ _ 100 .start (by decide)) rfl

end Netxduo.Mrp
