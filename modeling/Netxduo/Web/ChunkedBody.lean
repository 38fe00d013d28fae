import Mathlib.Algebra.Order.Ring.Int
import Mathlib.Data.List.TakeWhile
import Netxduo.Web.ChunkedStream

/-! Chunked bodies: what a body is, and that the client delivers its data, however it was cut. A size line without a digit
    is taken for the end of a body, and a size of more than 32 bits for another. -/

namespace Netxduo.Web

/-! ### What the client takes for a body -/

/-- The octets start with a body as the client reads it, with such data; `P` is asked of the octets at each size line. --/
inductive Decodes (P : List UInt8 → Prop) : Nat → List UInt8 → List UInt8 → Prop
  | last {need : Nat} {stream rest : List UInt8} : (need = 0 → P stream) →
      chunkAt need stream = some (0, carriageReturn :: lineFeed :: rest) → Decodes P need stream []
  | chunk {need size : Nat} {stream data rest more : List UInt8} : (need = 0 → P stream) →
      chunkAt need stream = some (size, data ++ carriageReturn :: lineFeed :: rest) → data.length = size → data ≠ [] →
      Decodes P 0 rest more → Decodes P need stream (data ++ more)

section decodes
variable {P Q : List UInt8 → Prop} {need : Nat} {stream data data' : List UInt8}

theorem Decodes.mono (h : Decodes P need stream data) (hPQ : ∀ s, P s → Q s) : Decodes Q need stream data := by
  induction h with
  | last hP hchunk => exact .last (fun h => hPQ _ (hP h)) hchunk
  | chunk hP hchunk hlength hne _ ih => exact .chunk (fun h => hPQ _ (hP h)) hchunk hlength hne ih

/-- The data of a body is one. --/
theorem Decodes.unique (h : Decodes P need stream data) (h' : Decodes Q need stream data') : data = data' := by
  induction h generalizing data' with
  | last _ hchunk =>
    cases h' with
    | last => rfl
    | chunk _ hchunk' hlength hne =>
      rw [hchunk] at hchunk'
      obtain ⟨rfl, -⟩ := Prod.mk.inj (Option.some.inj hchunk')
      exact absurd (List.length_eq_zero_iff.mp hlength) hne
  | chunk _ hchunk hlength hne _ ih =>
    cases h' with
    | last _ hchunk' =>
      rw [hchunk] at hchunk'
      obtain ⟨rfl, -⟩ := Prod.mk.inj (Option.some.inj hchunk')
      exact absurd (List.length_eq_zero_iff.mp hlength) hne
    | chunk _ hchunk' hlength' hne' hrest' =>
      rw [hchunk] at hchunk'
      obtain ⟨rfl, hsame⟩ := Prod.mk.inj (Option.some.inj hchunk')
      obtain ⟨rfl, hbehind⟩ := List.append_inj hsame (hlength.trans hlength'.symm)
      cases hbehind
      rw [ih hrest']

end decodes

/-! ### Successive calls -/

theorem sizeLine_length {extension : Bool} {size size' : UInt32} {stream rest : List UInt8}
    (h : sizeLine extension size stream = some (size', rest)) : rest.length < stream.length := by
  induction stream generalizing extension size with
  | nil => cases h
  | cons tmp stream ih =>
    unfold sizeLine at h
    split at h
    · exact Nat.lt_succ_of_lt (ih h)
    · cases h
      exact Nat.lt_succ_self _
    · cases h

theorem chunkAt_length {need size : Nat} {stream rest : List UInt8} (h : chunkAt need stream = some (size, rest)) :
    rest.length ≤ stream.length := by
  unfold chunkAt at h
  split at h
  · cases h
    exact Nat.le_refl _
  · obtain ⟨⟨size', rest'⟩, hhead, hsame⟩ := Option.map_eq_some_iff.mp h
    cases hsame
    obtain ⟨⟨size'', rest''⟩, hline, hif⟩ := Option.bind_eq_some_iff.mp hhead
    dsimp only at hif
    split at hif
    · cases hif
      have := sizeLine_length hline
      rw [List.length_tail]
      omega
    · cases hif

section calls
variable {payload : Nat} {c : Client}

/-- The end of the calls is one, too. --/
theorem getAll_unique {calls calls' : Nat} {out : List UInt8} {r r' : List UInt8 × Ending}
    (h : getAll payload calls c out = r) (h' : getAll payload calls' c out = r') (hr : r.2 ≠ .running) (hr' : r'.2 ≠ .running) :
    r = r' := by
  induction calls generalizing calls' c out with
  | zero =>
    cases h
    exact absurd rfl hr
  | succ calls ih =>
    cases calls' with
    | zero =>
      cases h'
      exact absurd rfl hr'
    | succ calls' =>
      unfold getAll at h h'
      split at h
      · rename_i status hget
        rw [hget] at h'
        exact h.symm.trans h'
      · rename_i c' hget
        rw [hget] at h'
        exact h.symm.trans h'
      · rename_i p c' hget
        rw [hget] at h'
        exact ih h h'

/-- The calls deliver the data of a body, and fail where there is none. --/
theorem getAll_spec (h : c.reader.Good payload) (out : List UInt8) :
    (∀ data, Decodes (fun _ => True) c.need c.reader.stream data → ∃ calls, getAll payload calls c out = (out ++ data, .done)) ∧
      ((∀ data, ¬Decodes (fun _ => True) c.need c.reader.stream data) →
        ∃ calls out' status, getAll payload calls c out = (out', .failed status)) := by
  induction hn : c.reader.stream.length using Nat.strongRecOn generalizing c out with
  | _ n ih =>
    rcases chunkedGet_spec h with ⟨c', rest, hget, hchunk⟩ |
      ⟨p, c', size, stream, hget, hchunk, hgood, hne, hcases⟩ | ⟨⟨status, hget⟩, hnone⟩
    · refine ⟨fun data hdata => ⟨1, ?_⟩, fun hno => absurd (.last (fun _ => trivial) hchunk) (hno [])⟩
      have hempty : data = [] := hdata.unique (Decodes.last (P := fun _ => True) (fun _ => trivial) hchunk)
      rw [hempty, List.append_nil, getAll, hget]
    · have hpos := List.length_pos_of_ne_nil hne
      have hless : c'.reader.stream.length < n := by
        have := chunkAt_length hchunk
        rcases hcases with ⟨-, -, hstream⟩ | ⟨-, -, hstream⟩
        · rw [hstream, List.length_append, List.length_cons, List.length_cons] at this
          omega
        · rw [hstream, List.length_append] at this
          omega
      obtain ⟨hdone, hfailed⟩ := ih _ hless hgood (out ++ p.flatten) rfl
      -- what the rest decodes to is what is left of the data
      have hback : ∀ more, Decodes (fun _ => True) c'.need c'.reader.stream more →
          Decodes (fun _ => True) c.need c.reader.stream (p.flatten ++ more) := by
        intro more hmore
        rcases hcases with ⟨hneed, hlength, hstream⟩ | ⟨hlength, hneed, hstream⟩
        · rw [hstream] at hchunk
          exact .chunk (fun _ => trivial) hchunk hlength hne (hneed ▸ hmore)
        · have hpart : ∀ s, chunkAt c'.need s = some (c'.need, s) := fun s => if_pos (by omega)
          cases hmore with
          | last _ hlast =>
            rw [hpart] at hlast
            obtain ⟨hzero, -⟩ := Prod.mk.inj (Option.some.inj hlast)
            omega
          | chunk _ hnext hdata hsome hrest =>
            rw [hpart] at hnext
            obtain ⟨hsize, hflat⟩ := Prod.mk.inj (Option.some.inj hnext)
            rw [hstream, hflat, ← List.append_assoc] at hchunk
            rw [← List.append_assoc]
            refine .chunk (fun _ => trivial) hchunk ?_ (List.append_ne_nil_of_left_ne_nil hne _) hrest
            rw [List.length_append]
            omega
      have hforth : ∀ data, Decodes (fun _ => True) c.need c.reader.stream data →
          ∃ more, data = p.flatten ++ more ∧ Decodes (fun _ => True) c'.need c'.reader.stream more := by
        intro data hdata
        cases hdata with
        | last _ hlast =>
          rw [hchunk] at hlast
          obtain ⟨hzero, -⟩ := Prod.mk.inj (Option.some.inj hlast)
          omega
        | @chunk _ size' _ octets behind more _ hnext hlength' hsome hrest =>
          rw [hchunk] at hnext
          obtain ⟨hsize, hflat⟩ := Prod.mk.inj (Option.some.inj hnext)
          rcases hcases with ⟨hneed, hlength, hstream⟩ | ⟨hlength, hneed, hstream⟩
          · obtain ⟨hsame, hbehind⟩ := List.append_inj (hstream.symm.trans hflat) (by omega)
            cases hbehind
            exact ⟨more, by rw [hsame], by rwa [hneed]⟩
          · rcases List.append_eq_append_iff.mp (hstream.symm.trans hflat) with ⟨part, hoctets, hpart⟩ | ⟨part, hp, -⟩
            · refine ⟨part ++ more, by rw [hoctets, List.append_assoc], ?_⟩
              have hlong := congrArg List.length hoctets
              rw [List.length_append] at hlong
              refine @Decodes.chunk _ _ c'.need _ _ _ _ (fun _ => trivial) ?_ (by omega) ?_ hrest
              · rw [← hpart]
                exact if_pos (by omega)
              · rintro rfl
                rw [List.length_nil] at hlong
                omega
            · have hshort := congrArg List.length hp
              rw [List.length_append] at hshort
              omega
      refine ⟨fun data hdata => ?_, fun hno => ?_⟩
      · obtain ⟨more, rfl, hmore⟩ := hforth data hdata
        obtain ⟨calls, hcalls⟩ := hdone more hmore
        exact ⟨calls + 1, by rw [getAll, hget, ← List.append_assoc]; exact hcalls⟩
      · obtain ⟨calls, out', status, hcalls⟩ := hfailed fun more hmore => hno _ (hback more hmore)
        exact ⟨calls + 1, out', status, by rw [getAll, hget]; exact hcalls⟩
    · refine ⟨fun data hdata => ?_, fun _ => ⟨1, out, status, by rw [getAll, hget]⟩⟩
      cases hdata with
      | last _ hlast => exact absurd rfl (hnone 0 [] _ hlast)
      | chunk _ hnext hlength => exact absurd hlength (hnone _ _ _ hnext)

end calls

/-! ### Bodies -/

def isHexDigit (c : UInt8) : Bool :=
  (decide (0x30 ≤ c) && decide (c ≤ 0x39)) || (decide (0x41 ≤ c) && decide (c ≤ 0x46)) ||
    (decide (0x61 ≤ c) && decide (c ≤ 0x66))

def hexValue (c : UInt8) : Nat :=
  if c ≤ 0x39 then c.toNat - 0x30 else if c ≤ 0x46 then c.toNat - 0x37 else c.toNat - 0x57

/-- The value of hexadecimal digits, behind a value of the digits in front. --/
def sizeValue (value : Nat) (digits : List UInt8) : Nat := digits.foldl (fun v d => v * 16 + hexValue d) value

/-- A chunk extension: nothing, or a semicolon and what follows, without a carriage return. --/
def Extension (extension : List UInt8) : Prop :=
  extension = [] ∨ ∃ rest, extension = semicolon :: rest ∧ carriageReturn ∉ rest

/-- A size line: one digit or more of a value of 32 bits, an extension, and the end of the line. --/
inductive SizeLine : List UInt8 → Nat → Prop
  | mk {digits extension : List UInt8} : digits ≠ [] → (∀ d ∈ digits, isHexDigit d = true) → sizeValue 0 digits < 2 ^ 32 →
      Extension extension → SizeLine (digits ++ extension ++ [carriageReturn, lineFeed]) (sizeValue 0 digits)

/-- A chunked body and its data. --/
inductive Body : List UInt8 → List UInt8 → Prop
  | last {line : List UInt8} : SizeLine line 0 → Body (line ++ [carriageReturn, lineFeed]) []
  | chunk {line data rest more : List UInt8} : SizeLine line data.length → data ≠ [] → Body rest more →
      Body (line ++ data ++ [carriageReturn, lineFeed] ++ rest) (data ++ more)

/-- The octets start with a body. --/
def Starts (octets data : List UInt8) : Prop := ∃ body tail, octets = body ++ tail ∧ Body body data

/-- The size line that the octets start with has a digit, and a value of 32 bits. --/
def StrictLine (octets : List UInt8) : Prop :=
  octets.takeWhile isHexDigit ≠ [] ∧ sizeValue 0 (octets.takeWhile isHexDigit) < 2 ^ 32

section lines
variable {c : UInt8} {size : UInt32} {stream rest : List UInt8}

theorem sizeStep_digit (size : UInt32) (h : isHexDigit c = true) :
    ∃ size', sizeStep false size c = .next false size' ∧ size'.toNat = (size.toNat * 16 + hexValue c) % 2 ^ 32 := by
  have hshift : (size <<< 4).toNat = size.toNat * 16 % 2 ^ 32 := by
    rw [UInt32.toNat_shiftLeft]
    have h4 : (4 : UInt32).toNat % 32 = 4 := rfl
    rw [h4, Nat.shiftLeft_eq]
  have hsub : ∀ base : UInt8, base ≤ c → (c - base).toUInt32.toNat = c.toNat - base.toNat := by
    intro base hbase
    rw [UInt8.toNat_toUInt32, UInt8.toNat_sub_of_le _ _ hbase]
  have hten : (10 : UInt32).toNat = 10 := rfl
  have hfirst : (0x30 : UInt8).toNat = 0x30 ∧ (0x41 : UInt8).toNat = 0x41 ∧ (0x61 : UInt8).toNat = 0x61 := ⟨rfl, rfl, rfl⟩
  unfold isHexDigit at h
  unfold sizeStep hexValue
  simp only [Bool.or_eq_true, Bool.and_eq_true, decide_eq_true_eq, UInt8.le_iff_toNat_le, UInt8.reduceToNat,
    Bool.false_eq_true, false_and, if_false] at h hsub ⊢
  rcases h with (⟨hlow, hhigh⟩ | ⟨hlow, hhigh⟩) | ⟨hlow, hhigh⟩
  · rw [if_neg (by omega), if_neg (by omega), if_pos ⟨hlow, hhigh⟩, if_pos hhigh]
    refine ⟨_, rfl, ?_⟩
    rw [UInt32.toNat_add, hshift, hsub 0x30 hlow, hfirst.1]
    omega
  · rw [if_neg (by omega), if_pos ⟨hlow, hhigh⟩, if_neg (by omega), if_pos hhigh]
    refine ⟨_, rfl, ?_⟩
    rw [UInt32.toNat_add, UInt32.toNat_add, hshift, hten, hsub 0x41 hlow, hfirst.2.1]
    omega
  · rw [if_pos ⟨hlow, hhigh⟩, if_neg (by omega), if_neg (by omega)]
    refine ⟨_, rfl, ?_⟩
    rw [UInt32.toNat_add, UInt32.toNat_add, hshift, hten, hsub 0x61 hlow, hfirst.2.2]
    omega

theorem sizeStep_other (h : isHexDigit c = false) :
    sizeStep false size c = if c = carriageReturn then .stop else if c = semicolon then .next true size else .bad := by
  unfold isHexDigit at h
  simp only [Bool.or_eq_false_iff, Bool.and_eq_false_imp, decide_eq_true_eq, decide_eq_false_iff_not] at h
  obtain ⟨⟨hdigit, hupper⟩, hlower⟩ := h
  unfold sizeStep
  rw [if_neg (fun h => Bool.false_ne_true h.1), if_neg (fun h => hlower h.1 h.2), if_neg (fun h => hupper h.1 h.2),
    if_neg (fun h => hdigit h.1 h.2)]

theorem sizeStep_extension (h : c ≠ carriageReturn) : sizeStep true size c = .next true size := if_pos ⟨rfl, h⟩

/-- Digits are read into the size, modulo 32 bits. --/
theorem sizeLine_digits {digits : List UInt8} (h : ∀ d ∈ digits, isHexDigit d = true) {size : UInt32} {value : Nat}
    (hsize : size.toNat = value % 2 ^ 32) (stream : List UInt8) :
    ∃ size', sizeLine false size (digits ++ stream) = sizeLine false size' stream ∧
      size'.toNat = sizeValue value digits % 2 ^ 32 := by
  induction digits generalizing size value with
  | nil => exact ⟨size, rfl, hsize⟩
  | cons d digits ih =>
    obtain ⟨size', hstep, hvalue⟩ := sizeStep_digit size (h d List.mem_cons_self)
    have hnext : size'.toNat = (value * 16 + hexValue d) % 2 ^ 32 := by
      rw [hvalue, hsize]
      omega
    obtain ⟨size'', hline, hvalue'⟩ := ih (fun x hx => h x (List.mem_cons_of_mem _ hx)) hnext
    refine ⟨size'', ?_, hvalue'⟩
    rw [List.cons_append, sizeLine, hstep]
    exact hline

/-- An extension is passed over, to the carriage return behind it. --/
theorem sizeLine_extension {extension : List UInt8} (h : carriageReturn ∉ extension) :
    sizeLine true size (extension ++ carriageReturn :: rest) = some (size, rest) := by
  induction extension with
  | nil => simp [sizeLine, sizeStep, carriageReturn]
  | cons c extension ih =>
    rw [List.cons_append, sizeLine, sizeStep_extension (fun hc => h (hc ▸ List.mem_cons_self))]
    exact ih fun hc => h (List.mem_cons_of_mem _ hc)

theorem sizeLine_extension_inv {size' : UInt32} (h : sizeLine true size stream = some (size', rest)) :
    ∃ extension, stream = extension ++ carriageReturn :: rest ∧ carriageReturn ∉ extension ∧ size' = size := by
  induction stream with
  | nil => cases h
  | cons c stream ih =>
    by_cases hc : c = carriageReturn
    · have hstop : sizeStep true size c = .stop := by
        rw [hc]
        simp [sizeStep, carriageReturn]
      rw [sizeLine, hstop] at h
      cases h
      exact ⟨[], by rw [hc]; rfl, List.not_mem_nil, rfl⟩
    · rw [sizeLine, sizeStep_extension hc] at h
      obtain ⟨extension, rfl, hnot, hsize⟩ := ih h
      refine ⟨c :: extension, rfl, fun hmem => ?_, hsize⟩
      rcases List.mem_cons.mp hmem with hmem | hmem
      · exact hc hmem.symm
      · exact hnot hmem

/-- A size line is read to its end, with its value. --/
theorem SizeLine.head {line : List UInt8} {value : Nat} (h : SizeLine line value) (rest : List UInt8) :
    StrictLine (line ++ rest) ∧ ∃ size, sizeHead (line ++ rest) = some (size, rest) ∧ size.toNat = value := by
  obtain ⟨hne, hdigits, hvalue, hextension⟩ := h
  rename_i digits extension
  obtain ⟨size, hline, hsize⟩ := @sizeLine_digits _ hdigits 0 0 rfl
    (extension ++ carriageReturn :: lineFeed :: rest)
  have happend : digits ++ extension ++ [carriageReturn, lineFeed] ++ rest =
      digits ++ (extension ++ carriageReturn :: lineFeed :: rest) := by simp
  have hbehind : sizeLine false size (extension ++ carriageReturn :: lineFeed :: rest) = some (size, lineFeed :: rest) ∧
      (extension ++ carriageReturn :: lineFeed :: rest).takeWhile isHexDigit = [] := by
    rcases hextension with rfl | ⟨more, rfl, hnot⟩
    · refine ⟨?_, ?_⟩
      · rw [List.nil_append, sizeLine, sizeStep_other (by decide), if_pos rfl]
      · exact List.takeWhile_cons_of_neg (by decide)
    · refine ⟨?_, ?_⟩
      · rw [List.cons_append, sizeLine, sizeStep_other (by decide), if_neg (by decide), if_pos rfl]
        exact sizeLine_extension hnot
      · exact List.takeWhile_cons_of_neg (by decide)
  rw [happend]
  have hwhile : (digits ++ (extension ++ carriageReturn :: lineFeed :: rest)).takeWhile isHexDigit = digits := by
    rw [List.takeWhile_append_of_pos hdigits, hbehind.2, List.append_nil]
  refine ⟨⟨by rw [hwhile]; exact hne, by rw [hwhile]; exact hvalue⟩, size, ?_, by rw [hsize, Nat.mod_eq_of_lt hvalue]⟩
  unfold sizeHead
  rw [hline, hbehind.1]
  rfl

/-- Of what is read as a size line, the strict ones are. --/
theorem StrictLine.line (h : StrictLine stream) {size : UInt32} (hhead : sizeHead stream = some (size, rest)) :
    ∃ line, stream = line ++ rest ∧ SizeLine line size.toNat := by
  obtain ⟨hne, hvalue⟩ := h
  have hdigits : ∀ d ∈ stream.takeWhile isHexDigit, isHexDigit d = true := fun d hd => List.mem_takeWhile_imp hd
  obtain ⟨size₀, hline, hsize⟩ := @sizeLine_digits _ hdigits 0 0 rfl (stream.dropWhile isHexDigit)
  rw [List.takeWhile_append_dropWhile] at hline
  rw [Nat.mod_eq_of_lt hvalue] at hsize
  obtain ⟨⟨size', behind⟩, hsome, hfeed⟩ := Option.bind_eq_some_iff.mp hhead
  rw [hline] at hsome
  dsimp only at hfeed
  split at hfeed
  · rename_i hlf
    obtain ⟨tail, rfl⟩ := List.head?_eq_some_iff.mp hlf
    cases hfeed
    have hshape : ∃ extension, stream.dropWhile isHexDigit = extension ++ carriageReturn :: lineFeed :: tail ∧
        Extension extension ∧ size = size₀ := by
      cases hdrop : stream.dropWhile isHexDigit with
      | nil =>
        rw [hdrop] at hsome
        cases hsome
      | cons c more =>
        rw [hdrop] at hsome
        have hnot : isHexDigit c = false := by
          have := List.head_dropWhile_not isHexDigit (l := stream) (by rw [hdrop]; exact List.cons_ne_nil _ _)
          simpa [hdrop] using this
        rw [sizeLine, sizeStep_other hnot] at hsome
        by_cases hcr : c = carriageReturn
        · rw [if_pos hcr] at hsome
          cases hsome
          exact ⟨[], by rw [hcr]; rfl, .inl rfl, rfl⟩
        · rw [if_neg hcr] at hsome
          by_cases hsemi : c = semicolon
          · rw [if_pos hsemi] at hsome
            obtain ⟨extension, rfl, hmem, hsame⟩ := sizeLine_extension_inv hsome
            exact ⟨c :: extension, rfl, .inr ⟨extension, by rw [hsemi], hmem⟩, hsame⟩
          · rw [if_neg hsemi] at hsome
            cases hsome
    obtain ⟨extension, hdrop, hextension, rfl⟩ := hshape
    refine ⟨stream.takeWhile isHexDigit ++ extension ++ [carriageReturn, lineFeed], ?_, ?_⟩
    · conv_lhs => rw [← List.takeWhile_append_dropWhile (p := isHexDigit) (l := stream), hdrop]
      simp
    · rw [hsize]
      exact .mk hne hdigits hvalue hextension
  · cases hfeed

end lines

/-! ### Every cut of a string of octets -/

theorem Starts.decodes {octets data : List UInt8} (h : Starts octets data) : Decodes StrictLine 0 octets data := by
  obtain ⟨body, tail, rfl, hbody⟩ := h
  induction hbody with
  | @last line hline =>
    obtain ⟨hstrict, size, hhead, hsize⟩ := hline.head ([carriageReturn, lineFeed] ++ tail)
    rw [List.append_assoc]
    refine @Decodes.last _ _ _ tail (fun _ => hstrict) ?_
    unfold chunkAt
    rw [if_neg (Nat.lt_irrefl _), hhead, ← hsize]
    rfl
  | @chunk line data rest more hline hne _ ih =>
    obtain ⟨hstrict, size, hhead, hsize⟩ := hline.head (data ++ carriageReturn :: lineFeed :: (rest ++ tail))
    have happend : line ++ data ++ [carriageReturn, lineFeed] ++ rest ++ tail =
        line ++ (data ++ carriageReturn :: lineFeed :: (rest ++ tail)) := by simp
    rw [happend]
    refine @Decodes.chunk _ _ _ _ data (rest ++ tail) _ (fun _ => hstrict) ?_ rfl hne ih
    unfold chunkAt
    rw [if_neg (Nat.lt_irrefl _), hhead, ← hsize]
    rfl

theorem Decodes.starts {need : Nat} {octets data : List UInt8} (h : Decodes StrictLine need octets data) (hneed : need = 0) :
    Starts octets data := by
  induction h with
  | @last need stream rest hstrict hchunk =>
    subst hneed
    unfold chunkAt at hchunk
    rw [if_neg (Nat.lt_irrefl _)] at hchunk
    obtain ⟨⟨size, behind⟩, hhead, hsame⟩ := Option.map_eq_some_iff.mp hchunk
    obtain ⟨hzero, rfl⟩ := Prod.mk.inj hsame
    obtain ⟨line, rfl, hline⟩ := (hstrict rfl).line hhead
    have hzero : size.toNat = 0 := hzero
    rw [hzero] at hline
    exact ⟨line ++ [carriageReturn, lineFeed], rest, by simp, .last hline⟩
  | @chunk need size stream data rest more hstrict hchunk hlength hne _ ih =>
    subst hneed
    unfold chunkAt at hchunk
    rw [if_neg (Nat.lt_irrefl _)] at hchunk
    obtain ⟨⟨size', behind⟩, hhead, hsame⟩ := Option.map_eq_some_iff.mp hchunk
    obtain ⟨hsize, rfl⟩ := Prod.mk.inj hsame
    obtain ⟨line, rfl, hline⟩ := (hstrict rfl).line hhead
    obtain ⟨body, tail, rfl, hbody⟩ := ih rfl
    have hsize : size'.toNat = size := hsize
    rw [hsize, ← hlength] at hline
    exact ⟨line ++ data ++ [carriageReturn, lineFeed] ++ body, tail, by simp, .chunk hline hne hbody⟩

/-- The octets are cut into packets, whose buffers hold something, and no more than a packet of the pool. --/
structure Cut (payload : Nat) (octets : List UInt8) (first : Chain) (incoming : List Chain) : Prop where
  octets : octets = first.flatten ++ incoming.flatten.flatten
  first : ∀ b ∈ first, b ≠ [] ∧ b.length ≤ payload
  incoming : ∀ p ∈ incoming, ∀ b ∈ p, b ≠ [] ∧ b.length ≤ payload

theorem Cut.good {payload : Nat} {octets : List UInt8} {first : Chain} {incoming : List Chain}
    (h : Cut payload octets first incoming) :
    (bodyStart first incoming).reader.Good payload ∧ (bodyStart first incoming).reader.stream = octets ∧
      (bodyStart first incoming).need = 0 := by
  refine ⟨⟨.inr rfl, fun b hb => (h.first b (List.mem_of_mem_tail hb)).1, fun b hb => (h.first b hb).2, h.incoming⟩, ?_, rfl⟩
  rw [h.octets]
  show (if first.flatten.length = 0 then [] else first.flatten) ++ incoming.flatten.flatten = _
  split
  · rename_i hempty
    rw [List.length_eq_zero_iff.mp hempty]
  · rfl

theorem flatten_singletons (octets : List UInt8) : (octets.map fun b => [b]).flatten = octets := by
  induction octets with
  | nil => rfl
  | cons b octets ih =>
    rw [List.map_cons, List.flatten_cons, ih]
    rfl

/-- However the octets are cut: where they start with a body, the calls deliver its data, and then the last of them is
    done; and where they start with none, a call fails. --/
def Delivers (payload : Nat) (octets : List UInt8) : Prop :=
  ∀ first incoming, Cut payload octets first incoming →
    (∀ data, Starts octets data → ∃ calls, getAll payload calls (bodyStart first incoming) [] = (data, .done)) ∧
      ((∀ data, ¬Starts octets data) →
        ∃ calls out status, getAll payload calls (bodyStart first incoming) [] = (out, .failed status))

/-- "0\r\n\r\n". --/
def emptyBody : List UInt8 := [0x30, 0x0D, 0x0A, 0x0D, 0x0A]

/-- "\r\n\r\n": a size line without a digit, and an empty line. --/
def digitless : List UInt8 := [0x0D, 0x0A, 0x0D, 0x0A]

end Netxduo.Web
