import Netxduo.Crypto.DrbgSpec

/-! The calls of the generator, one after another: each one that returns yields what SP 800-90A prescribes, and it returns
    where what the entropy source reports fits the buffer. -/

namespace Netxduo
open BlockModes CtrDrbg

/-- `instantiate`, `reseed` and `generate`, with their inputs. --/
inductive DrbgCall where
  | instantiate (nonce personalization : List UInt8)
  | reseed (additional : List UInt8)
  | generate (outputLen : Nat) (additional : List UInt8)

/-- A call: the status, the output and the context. --/
def drbgCall (fuel : Nat) (M : CryptoMethod) (source : EntropySource) (d : Drbg) :
    DrbgCall → Option (DrbgStatus × List UInt8 × Drbg)
  | .instantiate nonce personalization =>
    (drbgInstantiate M source d nonce personalization).map fun r => (r.1, [], r.2)
  | .reseed additional => (drbgReseed M source d additional).map fun r => (r.1, [], r.2)
  | .generate outputLen additional => drbgGenerate fuel M source d outputLen additional

namespace CtrDrbg

/-- The call as the standard has it, with the entropy it takes. --/
def call (M : CryptoMethod) (useDf predictionResistance : Bool) (s : State) (entropy : List UInt8) :
    DrbgCall → List UInt8 × State
  | .instantiate nonce personalization => ([], instantiate M useDf entropy nonce personalization)
  | .reseed additional => ([], reseed M useDf s entropy additional)
  | .generate n additional => generate M useDf predictionResistance s entropy n additional

/-- The call takes entropy. --/
def takesEntropy (predictionResistance : Bool) (s : State) : DrbgCall → Prop
  | .instantiate _ _ => True
  | .reseed _ => True
  | .generate _ _ => s.reseedCounter > 100000 ∨ predictionResistance = true

end CtrDrbg

/-- What the source reports at its n-th call. --/
def Reported (source : EntropySource) (n : Nat) (entropy : List UInt8) : Prop :=
  ∃ requested maximum, source n requested maximum = some entropy

/-- Without a derivation function the source reports the length requested. --/
def EntropyExact (source : EntropySource) (useDf : Bool) : Prop :=
  useDf = false →
    ∀ n requested maximum entropy, source n requested maximum = some entropy → entropy.length = requested

/-- The reported entropy and the other inputs fit the buffer of the derivation function, or the check turns the inputs
    away before. --/
def SeedFits (source : EntropySource) (d : Drbg) (nonce input : List UInt8) : Prop :=
  d.useDf = true →
    (d.securityStrength + nonce.length + input.length + drbgDfInputOffset) % 2 ^ 32 < drbgSeedBufferLen →
    ∀ entropy, source d.asked d.securityStrength drbgMaxEntropyLen = some entropy →
      entropy.length + nonce.length + input.length + 24 < 256

section
variable {M : CryptoMethod} {E : BlockCipher} {source : EntropySource} {d t : Drbg}
  {v output nonce input additional seed : List UInt8} {n k maximum fuel : Nat}

/-! ### The seed -/

theorem length_blockCipherDf (M : CryptoMethod) (input : List UInt8) :
    (blockCipherDf M input (seedlen M)).length = seedlen M := by
  have hsum : seedlen M = 16 + M.keyLength := rfl
  have hchained : ∀ (E : BlockCipher) (n : Nat) (x : List UInt8), x.length = 16 → (chained E n x).length = 16 * n := by
    intro E n
    induction n with
    | zero => exact fun _ _ => rfl
    | succ n ih =>
      intro x hx
      have hlen := E.length_encrypt _ hx
      rw [chained, List.length_append, ih _ hlen, hlen]
      omega
  unfold blockCipherDf
  dsimp only
  rw [List.length_take, hchained]
  · rw [blockCount]
    omega
  · rw [List.length_take, List.length_drop, List.length_flatMap]
    have hall : ∀ (K : BlockCipher), ((List.range (blockCount (seedlen M))).map fun i =>
        (bcc K (bigEndian 4 i ++ List.replicate 12 0 ++ dfString input (seedlen M))).length) =
        (List.range (blockCount (seedlen M))).map fun _ => 16 := fun K =>
      List.map_congr_left fun i _ => length_cbcMac (List.length_replicate ..) fun b hb => length_of_mem_blocks hb
    rw [hall, List.map_const', List.sum_replicate, List.length_range, smul_eq_mul, blockCount]
    omega

theorem length_seedMaterial (useDf : Bool) {entropy : List UInt8} (h : useDf = false → entropy.length = seedlen M)
    (nonce input : List UInt8) : (seedMaterial M useDf entropy nonce input).length = seedlen M := by
  unfold seedMaterial
  split
  · exact length_blockCipherDf M _
  · rename_i hnot
    rw [length_xor, h (Bool.eq_false_iff.mpr hnot), padded, List.length_append, List.length_replicate]
    omega

/-- A seed that is made is the standard's; a status leaves the state alone. --/
structure Seeded (M : CryptoMethod) (source : EntropySource) (d : Drbg) (nonce input : List UInt8)
    (r : Except DrbgStatus (List UInt8) × Drbg) : Prop where
  frame : ∃ b m, r.2 = { d with buffer := b, asked := m } ∧ b.length = 256
  ok : ∀ seed, r.1 = .ok seed → ∃ entropy, Reported source d.asked entropy ∧
    seed = seedMaterial M d.useDf entropy nonce input ∧ seed.length = seedlen M
  error : ∀ status, r.1 = .error status → status ≠ .success

theorem Seeded.failed (h : d.buffer.length = 256) {status : DrbgStatus} (hstatus : status ≠ .success) (m : Nat) :
    Seeded M source d nonce input (.error status, { d with asked := m }) where
  frame := ⟨d.buffer, m, rfl, h⟩
  ok := fun seed h => by cases h
  error := fun status' h => by
    cases h
    exact hstatus

theorem Seeded.made {b : List UInt8} (hb : b.length = 256) {entropy : List UInt8}
    (hentropy : Reported source d.asked entropy) (hlen : d.useDf = false → entropy.length = seedlen M)
    (hseed : seed = seedMaterial M d.useDf entropy nonce input) :
    Seeded M source d nonce input (.ok seed, { d with buffer := b, asked := d.asked + 1 }) where
  frame := ⟨b, d.asked + 1, rfl, hb⟩
  ok := fun seed' h => by
    cases h
    exact ⟨entropy, hentropy, hseed, hseed ▸ length_seedMaterial _ hlen nonce input⟩
  error := fun status h => by cases h

theorem drbgSeed_fits (hw : d.WellFormed M) (hseedlen : d.seedlen = seedlen M) (hexact : EntropyExact source d.useDf)
    (hfits : SeedFits source d nonce input) (maximum : Nat) :
    ∃ r, drbgSeed M source d nonce input maximum = some r ∧ Seeded M source d nonce input r := by
  have hle := M.keyLength_le
  have hsum : seedlen M = 16 + M.keyLength := rfl
  have hbuffer := hw.buffer
  unfold drbgSeed
  by_cases hdf : d.useDf = true
  · rw [if_pos hdf]
    by_cases hsize : (d.securityStrength + nonce.length + input.length + drbgDfInputOffset) % 2 ^ 32 ≥ drbgSeedBufferLen
    · rw [if_pos hsize]
      exact ⟨_, rfl, .failed hbuffer (by decide) d.asked⟩
    rw [if_neg hsize]
    have hfit := hfits hdf (Nat.lt_of_not_le hsize)
    cases hentropy : source d.asked d.securityStrength drbgMaxEntropyLen with
    | none =>
      exact ⟨_, rfl, .failed hbuffer (by decide) (d.asked + 1)⟩
    | some entropy =>
      have hroom := hfit entropy hentropy
      have htake : (d.buffer.take 24).length = 24 := by rw [List.length_take]; omega
      have hdrop : (d.buffer.drop 24).length = 232 := by rw [List.length_drop]; omega
      have h₁ := copyTo_append (i := drbgDfInputOffset) (d.buffer.take 24) (d.buffer.drop 24) entropy htake (by omega)
      rw [List.take_append_drop] at h₁
      have h₂ := copyTo_append (i := drbgDfInputOffset + entropy.length) (d.buffer.take 24 ++ entropy)
        ((d.buffer.drop 24).drop entropy.length) nonce (by rw [List.length_append, htake]; rfl)
        (by rw [List.length_drop]; omega)
      have h₃ := copyTo_append (i := drbgDfInputOffset + entropy.length + nonce.length)
        (d.buffer.take 24 ++ entropy ++ nonce) (((d.buffer.drop 24).drop entropy.length).drop nonce.length) input
        (by rw [List.length_append, List.length_append, htake]; rfl)
        (by rw [List.length_drop, List.length_drop]; omega)
      set post := (((d.buffer.drop 24).drop entropy.length).drop nonce.length).drop input.length with hpost
      have hwhole : d.buffer.take 24 ++ entropy ++ nonce ++ input ++ post =
          d.buffer.take 24 ++ (entropy ++ nonce ++ input) ++ post := by
        simp only [List.append_assoc]
      have hlen : (d.buffer.take 24 ++ entropy ++ nonce ++ input ++ post).length = 256 := by
        rw [hpost]
        simp only [List.length_append, List.length_drop, htake]
        omega
      have hinput : entropy.length + nonce.length + input.length = (entropy ++ nonce ++ input).length := by
        rw [List.length_append, List.length_append]
      obtain ⟨b, hblocks, hb⟩ := drbgBlockCipherDf_eq (n := d.seedlen)
        (d := { d with buffer := d.buffer.take 24 ++ entropy ++ nonce ++ input ++ post, asked := d.asked + 1 })
        M (entropy ++ nonce ++ input) post hwhole htake hlen hseedlen (by rw [← hinput]; exact hroom) hseedlen
      refine ⟨_, ?_, .made hb ⟨_, _, hentropy⟩ (fun h => by rw [hdf] at h; cases h)
        (show blockCipherDf M (entropy ++ nonce ++ input) d.seedlen = seedMaterial M d.useDf entropy nonce input from ?_)⟩
      · dsimp only [Option.elim]
        rw [h₁]
        dsimp only [Option.bind]
        rw [h₂]
        dsimp only [Option.bind]
        rw [h₃]
        dsimp only [Option.bind]
        rw [hinput, hblocks]
        rfl
      · rw [seedMaterial, if_pos hdf, hseedlen]
  · rw [if_neg hdf]
    by_cases hlong : input.length > d.seedlen
    · rw [if_pos hlong]
      exact ⟨_, rfl, .failed hbuffer (by decide) d.asked⟩
    rw [if_neg hlong]
    dsimp only
    cases hentropy : source d.asked d.seedlen maximum with
    | none =>
      exact ⟨_, rfl, .failed hbuffer (by decide) (d.asked + 1)⟩
    | some entropy =>
      have hlen : entropy.length = d.seedlen := hexact (Bool.eq_false_iff.mpr hdf) _ _ _ _ hentropy
      have hcopy : copyTo d.buffer 0 entropy = some (writeAt d.buffer 0 entropy) := if_pos (by omega)
      dsimp only [Option.elim]
      rw [hcopy]
      refine ⟨_, rfl, .made ?_ ⟨_, _, hentropy⟩ (fun _ => hlen.trans hseedlen) ?_⟩
      · rw [length_writeAt (by omega), hbuffer]
      · rw [take_writeAt_zero hlen, seedMaterial, if_neg hdf, padded, hseedlen]
        exact xor_swap

/-! ### The calls -/

/-- What a call keeps of the context. --/
structure Kept (M : CryptoMethod) (d t : Drbg) : Prop where
  wellFormed : t.WellFormed M
  useDf : t.useDf = d.useDf
  predictionResistance : t.predictionResistance = d.predictionResistance
  instantiated : t.instantiated = d.instantiated
  seedlen : t.seedlen = d.seedlen

theorem Kept.trans {u : Drbg} (h : Kept M d t) (h' : Kept M t u) : Kept M d u :=
  ⟨h'.wellFormed, h'.useDf.trans h.useDf, h'.predictionResistance.trans h.predictionResistance,
    h'.instantiated.trans h.instantiated, h'.seedlen.trans h.seedlen⟩

theorem drbgReseed_fits (hw : d.WellFormed M) (hseedlen : d.seedlen = seedlen M) (hinstance : d.instantiated = true)
    (hexact : EntropyExact source d.useDf) (hfits : SeedFits source d [] additional) :
    ∃ r, drbgReseed M source d additional = some r ∧ Kept M d r.2 ∧
      (r.1 = .success ∧ (∃ entropy, Reported source d.asked entropy ∧
        r.2.state M = reseed M d.useDf (d.state M) entropy additional) ∨
      r.1 ≠ .success ∧ r.2.state M = d.state M) := by
  obtain ⟨⟨made, t⟩, hseed, hseeded⟩ := drbgSeed_fits hw hseedlen hexact hfits drbgMaxEntropyLen
  obtain ⟨b, m, ht, hb⟩ := hseeded.frame
  obtain rfl : t = { d with buffer := b, asked := m } := ht
  have hw' : ({ d with buffer := b, asked := m } : Drbg).WellFormed M := ⟨hw.key, hw.v, hb⟩
  unfold drbgReseed
  rw [if_neg (by rw [hinstance]; decide), hseed]
  cases made with
  | error status => exact ⟨_, rfl, ⟨hw', rfl, rfl, rfl, rfl⟩, .inr ⟨hseeded.error status rfl, rfl⟩⟩
  | ok seed =>
    obtain ⟨entropy, hentropy, rfl, hlen⟩ := hseeded.ok seed rfl
    obtain ⟨hstate, hv, hkey⟩ := drbgUpdate_eq (M := M) (d := { d with buffer := b, asked := m })
      (some (seedMaterial M d.useDf entropy [] additional)) hw.v hw.key hseedlen (fun data h => by
        cases h
        exact hlen)
    refine ⟨_, rfl, ⟨⟨hkey, hv, hb⟩, rfl, rfl, rfl, rfl⟩, .inl ⟨rfl, entropy, hentropy, ?_⟩⟩
    have hkeyv := congrArg (fun s : State => ({ s with reseedCounter := 1 } : State)) hstate
    exact hkeyv

theorem drbgInstantiate_fits (hw : d.WellFormed M) (hexact : EntropyExact source d.useDf)
    (hfits : SeedFits source d nonce input) :
    ∃ r, drbgInstantiate M source d nonce input = some r ∧ r.2.WellFormed M ∧ r.2.useDf = d.useDf ∧
      r.2.predictionResistance = d.predictionResistance ∧
      (r.1 = .success ∧ r.2.seedlen = seedlen M ∧ (∃ entropy, Reported source d.asked entropy ∧
        r.2.state M = instantiate M d.useDf entropy nonce input) ∨
      r.1 ≠ .success ∧ r.2.state M = d.state M ∧ r.2.instantiated = d.instantiated ∧
        (r.2.seedlen = d.seedlen ∨ r.2.seedlen = seedlen M)) := by
  have hle := M.keyLength_le
  unfold drbgInstantiate
  by_cases hmethod : d.hasMethod = false
  · rw [if_pos hmethod]
    exact ⟨_, rfl, hw, rfl, rfl, .inr ⟨(fun h => by cases h), rfl, rfl, .inl rfl⟩⟩
  rw [if_neg hmethod]
  dsimp only
  obtain ⟨⟨made, t⟩, hseed, hseeded⟩ := drbgSeed_fits (d := { d with seedlen := 16 + M.keyLength })
    (M := M) ⟨hw.key, hw.v, hw.buffer⟩ rfl hexact
    (show SeedFits source { d with seedlen := 16 + M.keyLength } nonce input from hfits) (16 + M.keyLength)
  obtain ⟨b, m, ht, hb⟩ := hseeded.frame
  obtain rfl : t = { d with seedlen := 16 + M.keyLength, buffer := b, asked := m } := ht
  rw [hseed]
  cases made with
  | error status =>
    exact ⟨_, rfl, ⟨hw.key, hw.v, hb⟩, rfl, rfl, .inr ⟨hseeded.error status rfl, rfl, rfl, .inr rfl⟩⟩
  | ok seed =>
    obtain ⟨entropy, hentropy, rfl, hlen⟩ := hseeded.ok seed rfl
    obtain ⟨hstate, hv, hkey⟩ := drbgUpdate_eq (M := M)
      (d := { d with
        seedlen := 16 + M.keyLength, buffer := b, asked := m, key := List.replicate 32 0, v := List.replicate 16 0 })
      (some (seedMaterial M d.useDf entropy nonce input)) (List.length_replicate ..) (List.length_replicate ..) rfl
      (fun data h => by
        cases h
        exact hlen)
    refine ⟨_, rfl, ⟨hkey, hv, hb⟩, rfl, rfl, .inl ⟨rfl, rfl, entropy, hentropy, ?_⟩⟩
    have hzero : (List.replicate 32 (0 : UInt8)).take M.keyLength = List.replicate M.keyLength 0 := by
      rw [List.take_replicate, Nat.min_eq_left hle]
    have hkeyv := congrArg (fun s : State => ({ s with reseedCounter := 1 } : State)) hstate
    unfold Drbg.state at hkeyv
    dsimp only at hkeyv
    rw [hzero] at hkeyv
    exact hkeyv

/-! ### Output -/

theorem drbgGenerateLoop_eq (E : BlockCipher) (hn : n + 16 ≤ 2 ^ 32) (fuel : Nat) : ∀ t v output, v.length = 16 →
    output.length = t → t ≤ n → drbgGenerateLoop E n fuel t v output =
      if blockCount (n - t) < fuel then
        some (output ++ (outputBlocks E (blockCount (n - t)) v).1.take (n - t), (outputBlocks E (blockCount (n - t)) v).2)
      else none := by
  induction fuel with
  | zero => exact fun t v output _ _ _ => (if_neg (Nat.not_lt_zero _)).symm
  | succ fuel ih =>
    intro t v output hv hout ht
    rw [drbgGenerateLoop]
    by_cases hlt : t < n
    · rw [if_pos hlt]
      dsimp only
      have hlen := E.length_encrypt _ (length_addOne v)
      have hmod : (t + 16) % 2 ^ 32 = t + 16 := Nat.mod_eq_of_lt (by omega)
      rw [drbgCtrAddOne_eq hv, hmod, List.take_of_length_le (Nat.le_of_eq hout)]
      by_cases hpart : n - t < 16
      · have hone : blockCount (n - t) = 1 := by
          rw [blockCount]
          omega
        rw [if_pos hpart, hone, outputBlocks, outputBlocks]
        cases fuel with
        | zero => rfl
        | succ fuel =>
          rw [drbgGenerateLoop, if_neg (by omega), if_pos (by omega), List.append_nil]
      · have hcount : blockCount (n - t) = blockCount (n - (t + 16)) + 1 := by
          rw [blockCount, blockCount]
          omega
        rw [if_neg hpart, ih _ _ _ (length_addOne v) (by rw [List.length_append, hout, hlen]) (by omega), hcount,
          outputBlocks]
        by_cases hfuel : blockCount (n - (t + 16)) < fuel
        · rw [if_pos hfuel, if_pos (Nat.succ_lt_succ hfuel), List.append_assoc, List.take_append, hlen,
            List.take_of_length_le (by omega : (E.encrypt (addOne v)).length ≤ n - t), Nat.sub_add_eq]
        · rw [if_neg hfuel, if_neg (fun h => hfuel (Nat.lt_of_succ_lt_succ h))]
    · have hzero : n - t = 0 := by omega
      have hnone : blockCount 0 = 0 := rfl
      rw [if_neg hlt, hzero, hnone, if_pos (Nat.succ_pos _), List.take_zero, List.append_nil]
      rfl

/-- The 32 bits of the count wrap below the last block of a longer output, which never ends. --/
theorem drbgGenerateLoop_wraps (E : BlockCipher) (hn : 2 ^ 32 < n + 16) (fuel : Nat) : ∀ t v output, 16 ∣ t →
    t < 2 ^ 32 → drbgGenerateLoop E n fuel t v output = none := by
  induction fuel with
  | zero => exact fun t v output _ _ => rfl
  | succ fuel ih =>
    intro t v output ht hlt
    rw [drbgGenerateLoop, if_pos (by omega)]
    exact ih _ _ _ (by omega) (Nat.mod_lt _ (by decide))

/-- The additional input fits the buffer, or is turned away by the check of its length. --/
def AdditionFits (d : Drbg) (additional : List UInt8) : Prop :=
  d.useDf = true → (additional.length + drbgDfInputOffset) % 2 ^ 32 < drbgSeedBufferLen → additional.length + 24 < 256

/-- The additional input as the update takes it. --/
def additionData (M : CryptoMethod) (useDf : Bool) (additional : List UInt8) : Option (List UInt8) :=
  if additional = [] then none
  else some (if useDf then blockCipherDf M additional (seedlen M) else padded M additional)

theorem drbgAddition_fits (hw : d.WellFormed M) (hseedlen : d.seedlen = seedlen M) (hfits : AdditionFits d additional) :
    ∃ made b, drbgAddition M d additional = some (made, { d with buffer := b }) ∧ b.length = 256 ∧
      (∀ status, made = .error status → status ≠ .success ∧ additional ≠ []) ∧
      ∀ addition, made = .ok addition → addition = additionData M d.useDf additional ∧
        ∀ data, addition = some data → data.length = seedlen M := by
  have hbuffer := hw.buffer
  unfold drbgAddition additionData
  by_cases hempty : additional = []
  · subst hempty
    refine ⟨.ok none, d.buffer, ?_, hbuffer, (fun status h => by cases h), ?_⟩
    · by_cases hdf : d.useDf = true
      · rw [if_pos hdf, if_neg (by decide), if_neg (by decide)]
      · rw [if_neg hdf, if_neg (show ¬([] : List UInt8).length > d.seedlen from Nat.not_lt_zero _), if_neg (by decide)]
    · rintro addition h
      cases h
      exact ⟨(if_pos rfl).symm, fun data h => by cases h⟩
  have hpos : additional.length > 0 := List.length_pos_iff.mpr hempty
  by_cases hdf : d.useDf = true
  · rw [if_pos hdf]
    by_cases hsize : (additional.length + drbgDfInputOffset) % 2 ^ 32 ≥ drbgSeedBufferLen
    · rw [if_pos hsize]
      refine ⟨_, d.buffer, rfl, hbuffer, fun status h => ?_, fun addition h => by cases h⟩
      cases h
      exact ⟨by decide, hempty⟩
    rw [if_neg hsize, if_pos hpos]
    have hroom := hfits hdf (Nat.lt_of_not_le hsize)
    have htake : (d.buffer.take 24).length = 24 := by rw [List.length_take]; omega
    have hcopy := copyTo_append (i := drbgDfInputOffset) (d.buffer.take 24) (d.buffer.drop 24) additional htake
      (by rw [List.length_drop]; omega)
    rw [List.take_append_drop] at hcopy
    have hlen : (d.buffer.take 24 ++ additional ++ (d.buffer.drop 24).drop additional.length).length = 256 := by
      simp only [List.length_append, List.length_drop, htake]
      omega
    obtain ⟨b, hblocks, hb⟩ := drbgBlockCipherDf_eq (n := d.seedlen)
      (d := { d with buffer := d.buffer.take 24 ++ additional ++ (d.buffer.drop 24).drop additional.length })
      M additional _ rfl htake hlen hseedlen hroom hseedlen
    refine ⟨.ok (some (blockCipherDf M additional d.seedlen)), b, ?_, hb, (fun status h => by cases h), ?_⟩
    · rw [hcopy]
      dsimp only [Option.bind]
      rw [hblocks]
      rfl
    · rintro addition h
      cases h
      rw [hseedlen]
      refine ⟨by rw [if_neg hempty, if_pos hdf], fun data h => ?_⟩
      cases h
      exact length_blockCipherDf M additional
  · rw [if_neg hdf]
    by_cases hlong : additional.length > d.seedlen
    · rw [if_pos hlong]
      refine ⟨_, d.buffer, rfl, hbuffer, fun status h => ?_, fun addition h => by cases h⟩
      cases h
      exact ⟨by decide, hempty⟩
    rw [if_neg hlong, if_pos hpos]
    refine ⟨_, d.buffer, rfl, hbuffer, (fun status h => by cases h), ?_⟩
    rintro addition h
    cases h
    refine ⟨by rw [if_neg hempty, if_neg hdf, padded, hseedlen], fun data h => ?_⟩
    cases h
    rw [List.length_append, List.length_replicate]
    omega

/-- What generate does after a reseed, or without one. --/
structure Generated (M : CryptoMethod) (d : Drbg) (n : Nat) (additional : List UInt8)
    (r : DrbgStatus × List UInt8 × Drbg) : Prop where
  kept : Kept M d r.2.2
  success : r.1 = .success → (r.2.1, r.2.2.state M) = generateOutput M d.useDf (d.state M) n additional
  failure : r.1 ≠ .success → r.2.1 = [] ∧ r.2.2.state M = d.state M ∧ additional ≠ []

theorem drbgGenerateOutput_fits (hw : d.WellFormed M) (hseedlen : d.seedlen = seedlen M)
    (hfits : AdditionFits d additional) (fuel : Nat) :
    (∀ r, drbgGenerateOutput fuel M d n additional = some r → Generated M d n additional r) ∧
      (n + 16 ≤ 2 ^ 32 → blockCount n < fuel → (drbgGenerateOutput fuel M d n additional).isSome = true) := by
  obtain ⟨made, b, hmade, hb, herror, hok⟩ := drbgAddition_fits hw hseedlen hfits
  unfold drbgGenerateOutput
  rw [hmade]
  dsimp only [Option.bind]
  have hkept : Kept M d { d with buffer := b } := ⟨⟨hw.key, hw.v, hb⟩, rfl, rfl, rfl, rfl⟩
  cases made with
  | error status =>
    obtain ⟨hstatus, hne⟩ := herror status rfl
    refine ⟨fun r h => ?_, fun _ _ => rfl⟩
    cases h
    exact ⟨hkept, fun h => absurd h hstatus, fun _ => ⟨rfl, rfl, hne⟩⟩
  | ok addition =>
    obtain ⟨haddition, hdata⟩ := hok addition rfl
    dsimp only
    -- the context after the first update, and its state
    obtain ⟨d₁, hd₁, hkept₁, hstate₁⟩ : ∃ d₁, (addition.elim { d with buffer := b } fun data =>
        drbgUpdate M { d with buffer := b } (some data)) = d₁ ∧ Kept M d d₁ ∧
        d₁.state M = if additional = [] then d.state M else update M (d.state M)
          (if additional = [] then List.replicate (seedlen M) 0
            else if d.useDf then blockCipherDf M additional (seedlen M) else padded M additional) := by
      refine ⟨_, rfl, ?_⟩
      rw [haddition] at hdata ⊢
      unfold additionData at hdata ⊢
      by_cases hempty : additional = []
      · rw [if_pos hempty, if_pos hempty]
        exact ⟨hkept, rfl⟩
      · rw [if_neg hempty] at hdata
        rw [if_neg hempty, if_neg hempty, if_neg hempty]
        obtain ⟨hstate, hv, hkey⟩ := drbgUpdate_eq (M := M) (d := { d with buffer := b }) (some _) hw.v hw.key hseedlen
          hdata
        exact ⟨⟨⟨hkey, hv, hb⟩, rfl, rfl, rfl, rfl⟩, hstate⟩
    rw [hd₁]
    by_cases hn : n + 16 ≤ 2 ^ 32
    · rw [drbgGenerateLoop_eq _ hn fuel 0 d₁.v [] hkept₁.wellFormed.v rfl (Nat.zero_le _), Nat.sub_zero,
        List.nil_append]
      by_cases hfuel : blockCount n < fuel
      · rw [if_pos hfuel]
        refine ⟨fun r h => ?_, fun _ _ => rfl⟩
        cases h
        have hv := length_outputBlocks_snd (M.cipher (d₁.key.take M.keyLength)) (blockCount n) hkept₁.wellFormed.v
        obtain ⟨hstate, hv', hkey⟩ := drbgUpdate_eq (M := M) (d := { d₁ with
          v := (outputBlocks (M.cipher (d₁.key.take M.keyLength)) (blockCount n) d₁.v).2 }) addition hv
          hkept₁.wellFormed.key (hkept₁.seedlen.trans hseedlen) hdata
        refine ⟨⟨⟨hkey, hv', hkept₁.wellFormed.buffer⟩, hkept₁.useDf, hkept₁.predictionResistance, hkept₁.instantiated,
          hkept₁.seedlen⟩, fun _ => ?_, fun h => absurd rfl h⟩
        have hgetD : addition.getD (List.replicate (seedlen M) 0) = if additional = [] then List.replicate (seedlen M) 0
            else if d.useDf then blockCipherDf M additional (seedlen M) else padded M additional := by
          rw [haddition, additionData]
          split <;> rfl
        unfold generateOutput
        dsimp only
        rw [← hstate₁, ← hgetD]
        refine Prod.ext rfl ?_
        have hcount := congrArg (fun s : State => ({ s with reseedCounter := s.reseedCounter + 1 } : State)) hstate
        exact hcount
      · rw [if_neg hfuel]
        exact ⟨(fun r h => by cases h), fun _ h => absurd h hfuel⟩
    · rw [drbgGenerateLoop_wraps _ (by omega) fuel 0 d₁.v [] (Nat.dvd_zero _) (by decide)]
      exact ⟨(fun r h => by cases h), fun h _ => absurd h hn⟩

/-! ### One call -/

/-- A context between two calls. --/
structure Drbg.Ready (M : CryptoMethod) (d : Drbg) : Prop where
  wellFormed : d.WellFormed M
  seedlen : d.instantiated = true → d.seedlen = CtrDrbg.seedlen M

/-- What the call copies into the buffer fits it. --/
def CallFits (source : EntropySource) (d : Drbg) : DrbgCall → Prop
  | .instantiate nonce personalization => SeedFits source d nonce personalization
  | .reseed additional => SeedFits source d [] additional
  | .generate _ additional =>
    (d.reseedCounter > drbgMaxSeedLife ∨ d.predictionResistance = true → SeedFits source d [] additional) ∧
      (¬(d.reseedCounter > drbgMaxSeedLife ∨ d.predictionResistance = true) → AdditionFits d additional)

/-- The call yields the output and the state of the standard, or fails and leaves the state. --/
structure Conforms (M : CryptoMethod) (source : EntropySource) (d : Drbg) (c : DrbgCall)
    (r : DrbgStatus × List UInt8 × Drbg) : Prop where
  ready : r.2.2.Ready M
  useDf : r.2.2.useDf = d.useDf
  predictionResistance : r.2.2.predictionResistance = d.predictionResistance
  success : r.1 = .success → ∃ entropy,
    (takesEntropy d.predictionResistance (d.state M) c → Reported source d.asked entropy) ∧
      (r.2.1, r.2.2.state M) = CtrDrbg.call M d.useDf d.predictionResistance (d.state M) entropy c
  failure : r.1 ≠ .success → r.2.1 = [] ∧ r.2.2.state M = d.state M

theorem Kept.ready (h : Kept M d t) (hd : d.Ready M) : t.Ready M :=
  ⟨h.wellFormed, fun hinstance => h.seedlen.trans (hd.seedlen (h.instantiated.symm.trans hinstance))⟩

theorem Drbg.Ready.refused {c : DrbgCall} {status : DrbgStatus} (hd : d.Ready M) (h : status ≠ .success) :
    Conforms M source d c (status, [], d) :=
  ⟨hd, rfl, rfl, fun h' => absurd h' h, fun _ => ⟨rfl, rfl⟩⟩

theorem drbgInstantiate_conforms (hd : d.Ready M) (hexact : EntropyExact source d.useDf)
    (hfits : SeedFits source d nonce input) :
    ∃ r, drbgInstantiate M source d nonce input = some r ∧
      Conforms M source d (.instantiate nonce input) (r.1, [], r.2) := by
  obtain ⟨r, hr, hw, hdf, hresist, hcases⟩ := drbgInstantiate_fits hd.wellFormed hexact hfits
  refine ⟨r, hr, ?_⟩
  rcases hcases with ⟨hsuccess, hseedlen, entropy, hentropy, hstate⟩ | ⟨hfailure, hstate, hinstance, hseedlen⟩
  · exact ⟨⟨hw, fun _ => hseedlen⟩, hdf, hresist, fun _ => ⟨entropy, fun _ => hentropy, Prod.ext rfl hstate⟩,
      fun h => absurd hsuccess h⟩
  · refine ⟨⟨hw, fun h => ?_⟩, hdf, hresist, fun h => absurd h hfailure, fun _ => ⟨rfl, hstate⟩⟩
    rcases hseedlen with hseedlen | hseedlen
    · exact hseedlen.trans (hd.seedlen (hinstance.symm.trans h))
    · exact hseedlen

theorem drbgReseed_conforms (hd : d.Ready M) (hexact : EntropyExact source d.useDf)
    (hfits : SeedFits source d [] additional) :
    ∃ r, drbgReseed M source d additional = some r ∧ Conforms M source d (.reseed additional) (r.1, [], r.2) := by
  by_cases hinstance : d.instantiated = false
  · refine ⟨(.noInstance, d), ?_, hd.refused (show DrbgStatus.noInstance ≠ .success by decide)⟩
    rw [drbgReseed, if_pos hinstance]
  obtain ⟨r, hr, hkept, hcases⟩ := drbgReseed_fits hd.wellFormed (hd.seedlen (Bool.not_eq_false _ ▸ hinstance))
    (Bool.not_eq_false _ ▸ hinstance) hexact hfits
  refine ⟨r, hr, ?_⟩
  rcases hcases with ⟨hsuccess, entropy, hentropy, hstate⟩ | ⟨hfailure, hstate⟩
  · exact ⟨hkept.ready hd, hkept.useDf, hkept.predictionResistance,
      fun _ => ⟨entropy, fun _ => hentropy, Prod.ext rfl hstate⟩, fun h => absurd hsuccess h⟩
  · exact ⟨hkept.ready hd, hkept.useDf, hkept.predictionResistance, fun h => absurd h hfailure,
      fun _ => ⟨rfl, hstate⟩⟩

theorem drbgGenerate_conforms (hd : d.Ready M) (hexact : EntropyExact source d.useDf)
    (hfits : CallFits source d (.generate n additional)) (fuel : Nat) :
    (∀ r, drbgGenerate fuel M source d n additional = some r → Conforms M source d (.generate n additional) r) ∧
      (n + 16 ≤ 2 ^ 32 → blockCount n < fuel → (drbgGenerate fuel M source d n additional).isSome = true) := by
  unfold drbgGenerate
  by_cases hinstance : d.instantiated = false
  · rw [if_pos hinstance]
    refine ⟨fun r h => ?_, fun _ _ => rfl⟩
    cases h
    exact hd.refused (by decide)
  rw [if_neg hinstance]
  have hinstance : d.instantiated = true := Bool.not_eq_false _ ▸ hinstance
  have hseedlen := hd.seedlen hinstance
  by_cases hdue : d.reseedCounter > drbgMaxSeedLife ∨ d.predictionResistance = true
  · rw [if_pos hdue]
    have hdue' : (d.state M).reseedCounter > 100000 ∨ d.predictionResistance = true := hdue
    obtain ⟨r, hr, hkept, hcases⟩ := drbgReseed_fits hd.wellFormed hseedlen hinstance hexact (hfits.1 hdue)
    rw [hr]
    dsimp only [Option.bind]
    rcases hcases with ⟨hsuccess, entropy, hentropy, hstate⟩ | ⟨hfailure, hstate⟩
    · rw [if_neg (not_not.mpr hsuccess)]
      obtain ⟨hgenerated, hsome⟩ := drbgGenerateOutput_fits (n := n) hkept.wellFormed
        (hkept.seedlen.trans hseedlen) (show AdditionFits r.2 [] from fun _ _ => by decide) fuel
      refine ⟨fun r' h => ?_, hsome⟩
      have hg := hgenerated r' h
      have hall := hkept.trans hg.kept
      refine ⟨hall.ready hd, hall.useDf, hall.predictionResistance,
        fun h => ⟨entropy, fun _ => hentropy, ?_⟩, fun h => absurd rfl (hg.failure h).2.2⟩
      rw [hg.success h, hkept.useDf, hstate]
      exact (if_pos hdue').symm
    · rw [if_pos hfailure]
      refine ⟨fun r' h => ?_, fun _ _ => rfl⟩
      cases h
      exact ⟨hkept.ready hd, hkept.useDf, hkept.predictionResistance, fun h => absurd h hfailure,
        fun _ => ⟨rfl, hstate⟩⟩
  · rw [if_neg hdue]
    have hdue' : ¬((d.state M).reseedCounter > 100000 ∨ d.predictionResistance = true) := hdue
    obtain ⟨hgenerated, hsome⟩ := drbgGenerateOutput_fits (n := n) hd.wellFormed hseedlen (hfits.2 hdue) fuel
    refine ⟨fun r h => ?_, hsome⟩
    have hg := hgenerated r h
    refine ⟨hg.kept.ready hd, hg.kept.useDf, hg.kept.predictionResistance,
      fun h => ⟨[], fun h' => absurd h' hdue', ?_⟩, fun h => ⟨(hg.failure h).1, (hg.failure h).2.1⟩⟩
    rw [hg.success h]
    exact (if_neg hdue').symm

theorem drbgCall_conforms (hd : d.Ready M) (hexact : EntropyExact source d.useDf) {c : DrbgCall}
    (hfits : CallFits source d c) :
    (∀ fuel r, drbgCall fuel M source d c = some r → Conforms M source d c r) ∧
      ((∀ n additional, c = .generate n additional → n + 16 ≤ 2 ^ 32) →
        ∃ fuel, (drbgCall fuel M source d c).isSome = true) := by
  cases c with
  | instantiate nonce personalization =>
    obtain ⟨r, hr, hconforms⟩ := drbgInstantiate_conforms hd hexact hfits
    have hcall : ∀ fuel, drbgCall fuel M source d (.instantiate nonce personalization) = some (r.1, [], r.2) :=
      fun fuel => by
        rw [drbgCall, hr]
        rfl
    refine ⟨fun fuel r' h => ?_, fun _ => ⟨0, by rw [hcall]; rfl⟩⟩
    rw [hcall] at h
    cases h
    exact hconforms
  | reseed additional =>
    obtain ⟨r, hr, hconforms⟩ := drbgReseed_conforms hd hexact hfits
    have hcall : ∀ fuel, drbgCall fuel M source d (.reseed additional) = some (r.1, [], r.2) := fun fuel => by
      rw [drbgCall, hr]
      rfl
    refine ⟨fun fuel r' h => ?_, fun _ => ⟨0, by rw [hcall]; rfl⟩⟩
    rw [hcall] at h
    cases h
    exact hconforms
  | generate n additional =>
    exact ⟨fun fuel r h => (drbgGenerate_conforms hd hexact hfits fuel).1 r h, fun hn =>
      ⟨blockCount n + 1, (drbgGenerate_conforms hd hexact hfits _).2 (hn n additional rfl) (Nat.lt_succ_self _)⟩⟩

/-! ### A sequence of calls -/

/-- Calls that return, each within the buffer, with their statuses and outputs. --/
inductive DrbgRun (M : CryptoMethod) (source : EntropySource) :
    Drbg → List (DrbgCall × DrbgStatus × List UInt8) → Drbg → Prop
  | nil (d : Drbg) : DrbgRun M source d [] d
  | call {d t : Drbg} {c : DrbgCall} {r : DrbgStatus × List UInt8 × Drbg}
    {rest : List (DrbgCall × DrbgStatus × List UInt8)} (fuel : Nat) (hfits : CallFits source d c)
    (hcall : drbgCall fuel M source d c = some r) (hrest : DrbgRun M source r.2.2 rest t) :
    DrbgRun M source d ((c, r.1, r.2.1) :: rest) t

/-- The same calls as the standard has them; one that fails changes nothing. --/
inductive CtrDrbg.Runs (M : CryptoMethod) (useDf predictionResistance : Bool) (source : EntropySource) :
    State → List (DrbgCall × DrbgStatus × List UInt8) → State → Prop
  | nil (s : State) : Runs M useDf predictionResistance source s [] s
  | failed {s t : State} {c : DrbgCall} {status : DrbgStatus} {rest : List (DrbgCall × DrbgStatus × List UInt8)}
    (h : status ≠ .success) (hrest : Runs M useDf predictionResistance source s rest t) :
    Runs M useDf predictionResistance source s ((c, status, []) :: rest) t
  | succeeded {s t : State} {c : DrbgCall} {rest : List (DrbgCall × DrbgStatus × List UInt8)} (n : Nat)
    (entropy : List UInt8) (hentropy : takesEntropy predictionResistance s c → Reported source n entropy)
    (hrest : Runs M useDf predictionResistance source (CtrDrbg.call M useDf predictionResistance s entropy c).2 rest t) :
    Runs M useDf predictionResistance source s
      ((c, .success, (CtrDrbg.call M useDf predictionResistance s entropy c).1) :: rest) t

theorem DrbgRun.conforms {log : List (DrbgCall × DrbgStatus × List UInt8)} (hrun : DrbgRun M source d log t)
    (hd : d.Ready M) (hexact : EntropyExact source d.useDf) :
    CtrDrbg.Runs M d.useDf d.predictionResistance source (d.state M) log (t.state M) := by
  induction hrun with
  | nil d => exact .nil _
  | @call d t c r rest fuel hfits hcall _ ih =>
    have hconforms := (drbgCall_conforms hd hexact hfits).1 fuel r hcall
    have hrest := ih hconforms.ready (by rw [hconforms.useDf]; exact hexact)
    rw [hconforms.useDf, hconforms.predictionResistance] at hrest
    obtain ⟨status, out, d'⟩ := r
    by_cases hsuccess : status = .success
    · subst hsuccess
      obtain ⟨entropy, hentropy, hresult⟩ := hconforms.success rfl
      obtain ⟨rfl, hstate⟩ := Prod.ext_iff.mp hresult
      have hstate : d'.state M = _ := hstate
      rw [hstate] at hrest
      exact .succeeded d.asked entropy hentropy hrest
    · obtain ⟨rfl, hstate⟩ := hconforms.failure hsuccess
      have hstate : d'.state M = d.state M := hstate
      rw [hstate] at hrest
      exact .failed hsuccess hrest

end

def CryptoMethod.plain : CryptoMethod := ⟨16, fun _ => ⟨id, fun _ h => h⟩, by decide⟩

def Drbg.fresh : Drbg where
  hasMethod := true
  useDf := true
  predictionResistance := false
  securityStrength := 32
  instantiated := false
  key := List.replicate 32 0
  v := List.replicate 16 0
  reseedCounter := 0
  seedlen := 0
  buffer := List.replicate 256 0
  asked := 0

theorem ready_fresh : Drbg.fresh.Ready .plain :=
  ⟨⟨List.length_replicate .., List.length_replicate .., List.length_replicate ..⟩, fun h => by cases h⟩

/-- A source that reports the length requested. --/
def exactEntropy : EntropySource := fun _ requested _ => some (List.replicate requested 7)

/-- A source that reports as much as it may. --/
def fullEntropy : EntropySource := fun _ requested maximum =>
  if requested ≤ maximum then some (List.replicate maximum 7) else none

end Netxduo
