import FuzztructionNet.Config.Keys
import Mathlib.Data.Nat.Digits

/-!
# What the scalar converters accept

Three converters turn a scalar of the configuration file into a value: `FromStrDuration::from_str`
(through `Duration::try_from_yaml`), `ServerReadySignalKind::try_from_yaml` and
`MutationSiteID::try_from_yaml`.

The two string converters search their regex without anchors, so a match may have text before
and after it, and `unwrap` what they find. A duration is accepted as soon as the string holds a
digit followed by a unit letter. The value is that of the whole digit run before the first such
letter, and an amount or a product that does not fit a `u64` panics. A `server-ready-on` string
is accepted as soon as it holds `bind` or `listen`. A count that does not start with `1`..`9` is
ignored and read as 0, and a string with neither keyword panics; so the converter never returns
an error for a string. A patch-point id is any `i64`, cast to `u64`, where the `u64` converter
rejects the negative ones. The port of an SGFuzz `netinfo` is read back as written.
-/

namespace FuzztructionNet.Configuration

/-! ## Durations -/

/-- The regex `([0-9]+)(s|m|h|d|a)` has a match in `cs`: a digit stands right before a unit
letter. -/
def HasDurationMatch (cs : List Char) : Prop :=
  ∃ d u, d.isDigit ∧ (unitMillis u).isSome ∧ [d, u] <:+: cs

theorem unitMillis_not_digit {u : Char} (hu : (unitMillis u).isSome) : ¬u.isDigit := by
  unfold unitMillis at hu
  split at hu <;> first | decide | cases hu

theorem hasDurationMatch_cons {c : Char} {cs : List Char} :
    HasDurationMatch (c :: cs) ↔
      (c.isDigit ∧ cs.head?.any fun u => (unitMillis u).isSome) ∨ HasDurationMatch cs := by
  unfold HasDurationMatch
  simp only [List.infix_cons_iff, List.cons_prefix_cons]
  constructor
  · rintro ⟨d, u, hd, hu, ⟨rfl, hp⟩ | hi⟩
    · cases cs with
      | nil => simp at hp
      | cons u' t => exact .inl ⟨hd, by simp_all⟩
    · exact .inr ⟨d, u, hd, hu, hi⟩
  · rintro (⟨hc, hu⟩ | ⟨d, u, hd, hu, hi⟩)
    · cases cs with
      | nil => cases hu
      | cons u' t => exact ⟨c, u', hc, by simpa using hu, .inl ⟨rfl, by simp⟩⟩
    · exact ⟨d, u, hd, hu, .inr hi⟩

section Scan

variable {c : Char} {run cs : List Char}

theorem durationCaptures_digit (hc : c.isDigit) :
    durationCaptures run (c :: cs) = durationCaptures (c :: run) cs := by
  simp [durationCaptures, hc]

theorem durationCaptures_unit (hc : ¬c.isDigit) (hr : run ≠ []) (hu : (unitMillis c).isSome) :
    durationCaptures run (c :: cs) = some (run.reverse, c) := by
  simp [durationCaptures, hc, hr, hu]

theorem durationCaptures_other (hc : ¬c.isDigit) (h : ¬(run ≠ [] ∧ (unitMillis c).isSome)) :
    durationCaptures run (c :: cs) = durationCaptures [] cs := by
  simp only [durationCaptures, hc, h, if_false, Bool.false_eq_true]

/-- The scan finds a match exactly where the regex has one: with `run` the digits read since
the last non-digit, it answers `none` when no unit letter follows them and the rest holds no
match. -/
theorem durationCaptures_eq_none :
    durationCaptures run cs = none ↔ ¬HasDurationMatch cs ∧
      (run = [] ∨ (cs.head?.any fun u => (unitMillis u).isSome) = false) := by
  induction cs generalizing run with
  | nil => simp [durationCaptures, HasDurationMatch]
  | cons c cs ih =>
    rw [hasDurationMatch_cons]
    by_cases hc : c.isDigit
    · have hu : (unitMillis c).isSome = false := by
        simpa using fun h => unitMillis_not_digit h hc
      rw [durationCaptures_digit hc, ih]
      simp only [hc, hu, List.head?_cons, Option.any_some, true_and, List.cons_ne_nil,
        false_or, or_true, and_true, not_or, Bool.not_eq_true]
      exact and_comm
    · by_cases hm : run ≠ [] ∧ (unitMillis c).isSome
      · simp [durationCaptures_unit hc hm.1 hm.2, hm.1, hm.2]
      · rw [durationCaptures_other hc hm, ih]
        simp only [not_and, Bool.not_eq_true] at hm
        by_cases hr : run = [] <;> simp_all

/-- A match the scan reports is a run of digits and a unit letter inside the input, the digits
read before the scan started coming first. -/
theorem durationCaptures_eq_some {ds : List Char} {u : Char} (hrun : ∀ x ∈ run, x.isDigit)
    (h : durationCaptures run cs = some (ds, u)) :
    ∃ pre post, run.reverse ++ cs = pre ++ ds ++ u :: post ∧ ds ≠ [] ∧ (∀ x ∈ ds, x.isDigit) ∧
      (unitMillis u).isSome := by
  induction cs generalizing run with
  | nil => simp [durationCaptures] at h
  | cons c cs ih =>
    by_cases hc : c.isDigit
    · rw [durationCaptures_digit hc] at h
      obtain ⟨pre, post, he, hrest⟩ := ih (List.forall_mem_cons.2 ⟨hc, hrun⟩) h
      exact ⟨pre, post, by simpa using he, hrest⟩
    · by_cases hm : run ≠ [] ∧ (unitMillis c).isSome
      · rw [durationCaptures_unit hc hm.1 hm.2] at h
        obtain ⟨rfl, rfl⟩ := Prod.mk.inj (Option.some.inj h)
        exact ⟨[], cs, by simp, by simpa using hm.1,
          fun x hx => hrun x (List.mem_reverse.1 hx), hm.2⟩
      · rw [durationCaptures_other hc hm] at h
        obtain ⟨pre, post, he, hrest⟩ := ih (by simp) h
        exact ⟨run.reverse ++ c :: pre, post, by simpa using he, hrest⟩

end Scan

theorem unitMillis_pos {u : Char} {mult : ℕ} (hu : unitMillis u = some mult) : 0 < mult := by
  unfold unitMillis at hu
  split at hu <;> cases hu <;> decide

/-! ### What `from_str` returns -/

section FromStr

variable {s : String}

theorem fromStr_of_captures {ds : List Char} {u : Char} {mult : ℕ}
    (h : durationCaptures [] s.toList = some (ds, u)) (hu : unitMillis u = some mult) :
    FromStrDuration.fromStr s =
      if h : digitsValue ds * mult < 2 ^ 64 then some (.ok (Duration.fromMillis _ h))
      else none := by
  unfold FromStrDuration.fromStr
  rw [h]
  simp only [hu]
  by_cases hp : digitsValue ds * mult < 2 ^ 64
  · rw [if_pos ((Nat.le_mul_of_pos_right _ (unitMillis_pos hu)).trans_lt hp)]
  · simp only [dif_neg hp, ite_self]

theorem fromStr_of_captures_none (h : durationCaptures [] s.toList = none) :
    FromStrDuration.fromStr s = some (.error ("Invalid duration format (" ++ s ++ ")!")) := by
  unfold FromStrDuration.fromStr
  rw [h]

/-- `from_str` returns an error exactly on the strings in which the regex has no match; a string
with a match is accepted or panics. -/
theorem fromStr_eq_error_iff :
    (∃ e, FromStrDuration.fromStr s = some (.error e)) ↔ ¬HasDurationMatch s.toList := by
  have key : durationCaptures [] s.toList = none ↔ ¬HasDurationMatch s.toList := by
    simpa using @durationCaptures_eq_none [] s.toList
  rw [← key]
  rcases hc : durationCaptures [] s.toList with _ | ⟨ds, u⟩
  · simp [fromStr_of_captures_none hc]
  · obtain ⟨-, -, -, -, -, hu⟩ := durationCaptures_eq_some (by simp) hc
    obtain ⟨mult, hu⟩ := Option.isSome_iff_exists.1 hu
    rw [fromStr_of_captures hc hu]
    split <;> simp

/-- Text after the unit letter and before the digits is ignored: `5min` is five minutes and
`1.5h` five hours. A number that does not fit a `u64`, or whose milliseconds do not, panics. -/
theorem durationFromStr_beyond_grammar :
    FromStrDuration.fromStr "5min" = some (.ok (Duration.fromMillis 300000 (by decide))) ∧
      FromStrDuration.fromStr "1.5h" = some (.ok (Duration.fromMillis 18000000 (by decide))) ∧
      FromStrDuration.fromStr "99999999999999999999s" = none ∧
      FromStrDuration.fromStr "18446744073709552s" = none :=
  ⟨rfl, rfl, rfl, rfl⟩

end FromStr

/-! ## `server-ready-on` -/

section Keyword

variable {cs rest : List Char} {kw : String}

theorem readySignalCaptures_keyword {g : Option (List Char)}
    (h : readySignalCaptures cs = some (kw, g)) : kw = "bind" ∨ kw = "listen" := by
  induction cs with
  | nil => cases h
  | cons c cs ih =>
    rw [readySignalCaptures] at h
    split at h
    · cases h; exact .inl rfl
    · split at h
      · cases h; exact .inr rfl
      · exact ih h

end Keyword

/-! ### What the converter returns -/

section Converter

variable (b : ConfigBuilder) {s kw : String} {rest : List Char}

theorem readySignal_tryFromYaml_string (s : String) :
    (tryFromYaml b (.string s) : Outcome ServerReadySignalKind) =
      match readySignalCaptures (toLowercase s).toList with
      | none => .error .panic
      | some (keyword, none) => readySignalKind keyword (toLowercase s) 0
      | some (keyword, some digits) =>
        if digitsValue digits < b.world.counterBound then
          readySignalKind keyword (toLowercase s) (digitsValue digits)
        else .error .panic :=
  rfl

theorem readySignalKind_ok {ret : String} (h : kw = "bind" ∨ kw = "listen") (n : ℕ) :
    ∃ k, readySignalKind kw ret n = .ok k := by
  rcases h with rfl | rfl
  exacts [⟨_, rfl⟩, ⟨_, rfl⟩]

/-- On a string the converter never returns an error: it accepts the string or panics. -/
theorem readySignal_string_ok_or_panic (s : String) :
    (∃ k, (tryFromYaml b (.string s) : Outcome ServerReadySignalKind) = .ok k) ∨
      (tryFromYaml b (.string s) : Outcome ServerReadySignalKind) = .error .panic := by
  rw [readySignal_tryFromYaml_string]
  split
  · exact .inr rfl
  · next hc => exact .inl (readySignalKind_ok (readySignalCaptures_keyword hc) 0)
  · next hc =>
    split
    · exact .inl (readySignalKind_ok (readySignalCaptures_keyword hc) _)
    · exact .inr rfl

theorem readySignal_not_string {y : Yaml} (hy : y.asStr = none) :
    (tryFromYaml b y : Outcome ServerReadySignalKind) =
      .error (.err (.config (.convertionFailed y "String"))) := by
  simp [tryFromYaml, okOr, hy, bind, Except.bind]

/-- **The converter returns an error exactly on the values that are not strings**: on a
string it accepts or panics. -/
theorem readySignal_err_iff (y : Yaml) :
    (∃ e, (tryFromYaml b y : Outcome ServerReadySignalKind) = .error (.err e)) ↔
      y.asStr = none := by
  cases hy : y.asStr with
  | none => exact iff_of_true ⟨_, readySignal_not_string b hy⟩ rfl
  | some s =>
    obtain rfl : y = .string s := by cases y <;> simp_all [Yaml.asStr]
    refine iff_of_false (fun ⟨e, he⟩ => ?_) (Option.some_ne_none s)
    rcases readySignal_string_ok_or_panic b s with ⟨k, hk⟩ | hk <;> rw [he] at hk <;> cases hk

end Converter

/-- `listen(0)` and `bind(3` are read with count 0 and `rebind` as `bind`; a string without a
keyword panics, and so does a count the counter does not hold. -/
theorem readySignal_beyond_grammar (b : ConfigBuilder) :
    (tryFromYaml b (.string "listen(0)") : Outcome ServerReadySignalKind) = .ok (.listen 0) ∧
      (tryFromYaml b (.string "bind(3") : Outcome ServerReadySignalKind) = .ok (.bind 0) ∧
      (tryFromYaml b (.string "rebind") : Outcome ServerReadySignalKind) = .ok (.bind 0) ∧
      (tryFromYaml b (.string "foo") : Outcome ServerReadySignalKind) = .error .panic ∧
      (tryFromYaml rootBuilder (.string "listen(4294967296)") : Outcome ServerReadySignalKind) =
        .error .panic :=
  ⟨rfl, rfl, rfl, rfl, rfl⟩

/-! ## Patch-point ids -/

section PatchPoint

variable (b : ConfigBuilder) {y : Yaml} {i : Int}

theorem u64_tryFromYaml_integer (hy : y.asI64 = some i) :
    (tryFromYaml b y : Outcome UInt64) =
      if 0 ≤ i ∧ i < 2 ^ 64 then .ok (UInt64.ofNat i.toNat) else .error (.err .tryFromInt) := by
  simp only [tryFromYaml, forIntType, okOr, hy, bind, Except.bind]
  split_ifs <;> rfl

theorem mutationSiteID_tryFromYaml_integer (hy : y.asI64 = some i) :
    (tryFromYaml b y : Outcome MutationSiteID) = .ok ⟨UInt64.ofNat (i % 2 ^ 64).toNat⟩ := by
  simp only [tryFromYaml, okOr, hy]
  rfl

theorem u64_mutationSiteID_not_integer (hy : y.asI64 = none) :
    (tryFromYaml b y : Outcome UInt64) = .error (.err (.message "Failed to convert into i64")) ∧
      (tryFromYaml b y : Outcome MutationSiteID) =
        .error (.err (.config (.convertionFailed y "i64"))) := by
  simp only [tryFromYaml, forIntType, okOr, hy]
  exact ⟨rfl, rfl⟩

/-- Where the `u64` converter accepts a value, the id converter returns the id of the same
number. -/
theorem mutationSiteID_of_u64 {v : UInt64} (h : (tryFromYaml b y : Outcome UInt64) = .ok v) :
    (tryFromYaml b y : Outcome MutationSiteID) = .ok ⟨v⟩ := by
  cases hy : y.asI64 with
  | none => simp [(u64_mutationSiteID_not_integer b hy).1] at h
  | some i =>
    rw [u64_tryFromYaml_integer b hy] at h
    split_ifs at h with hi
    cases h
    rw [mutationSiteID_tryFromYaml_integer b hy, Int.emod_eq_of_lt hi.1 hi.2]

theorem fortyTwo_mutationSiteID :
    (tryFromYaml rootBuilder (.integer 42) : Outcome UInt64) = .ok 42 ∧
      (tryFromYaml rootBuilder (.integer 42) : Outcome MutationSiteID) = .ok ⟨42⟩ :=
  ⟨rfl, mutationSiteID_of_u64 rootBuilder rfl⟩

/-- On a negative integer the `u64` converter fails and the id converter wraps it to
`2^64 + i`. -/
theorem mutationSiteID_wraps_negative (hy : y.asI64 = some i) (hlo : -2 ^ 64 ≤ i) (hi : i < 0) :
    (tryFromYaml b y : Outcome UInt64) = .error (.err .tryFromInt) ∧
      ∃ m : MutationSiteID, (tryFromYaml b y : Outcome MutationSiteID) = .ok m ∧
        (m.id.toNat : Int) = 2 ^ 64 + i := by
  refine ⟨by rw [u64_tryFromYaml_integer b hy, if_neg (by omega)], _,
    mutationSiteID_tryFromYaml_integer b hy, ?_⟩
  have hmod : i % 2 ^ 64 = 2 ^ 64 + i := by omega
  show ((UInt64.ofNat (i % 2 ^ 64).toNat).toNat : Int) = _
  rw [UInt64.toNat_ofNat_of_lt (by unfold UInt64.size; omega), hmod]
  omega

theorem minusFive_mutationSiteID :
    (Yaml.integer (-5)).asI64 = some (-5) ∧ -2 ^ 64 ≤ (-5 : Int) ∧ (-5 : Int) < 0 ∧
      (tryFromYaml rootBuilder (.integer (-5)) : Outcome UInt64) = .error (.err .tryFromInt) ∧
      ∃ m : MutationSiteID, (tryFromYaml rootBuilder (.integer (-5)) : Outcome MutationSiteID) =
        .ok m ∧ (m.id.toNat : Int) = 2 ^ 64 + -5 :=
  ⟨rfl, by decide, by decide, mutationSiteID_wraps_negative rootBuilder rfl (by decide) (by decide)⟩

end PatchPoint

def negativePatchPointDocument : Yaml :=
  .hash [attr "work-directory" (.string "/work"), attr "input-directory" (.string "/input"),
    attr "source" (.hash (programAttrs "/bin/source" ++
      [attr "allowed-patch-points" (.array [.integer (-1)])])),
    attr "sink" (.hash (programAttrs "/bin/sink")),
    attr "vanilla" (.hash [attr "bin-path" (.string "/bin/vanilla")])]

/-- `-1` is rejected as a `u64` and read as the id `2^64 - 1`, also among the
`allowed-patch-points` of a configuration that `from_str` accepts. -/
theorem mutationSiteID_wraps_minus_one (b : ConfigBuilder) :
    (tryFromYaml b (.integer (-1)) : Outcome UInt64) = .error (.err .tryFromInt) ∧
      (tryFromYaml b (.integer (-1)) : Outcome MutationSiteID) = .ok ⟨18446744073709551615⟩ ∧
      ∃ c L, fromStr rootBuilder [negativePatchPointDocument] = .ok (c, L) ∧
        c.source.allowedPatchPoints = some [⟨18446744073709551615⟩] :=
  ⟨rfl, rfl, _, _, rfl, rfl⟩

/-! ## Ports

`SGFuzzConfig::dst_port` parses the text after the last `/` of `netinfo` as a `u16`.  It reads
back every port written there in decimal, whatever stands before the slash. -/

theorem foldl_digitsValue (a : ℕ) (l : List Char) :
    l.foldl (fun n c => 10 * n + (c.toNat - '0'.toNat)) a = a * 10 ^ l.length + digitsValue l := by
  induction l generalizing a with
  | nil => simp [digitsValue]
  | cons c l ih =>
    simp only [List.foldl_cons, digitsValue, List.length_cons] at ih ⊢
    rw [ih, ih (10 * 0 + _)]
    ring

theorem digitsValue_append (l₁ l₂ : List Char) :
    digitsValue (l₁ ++ l₂) = digitsValue l₁ * 10 ^ l₂.length + digitsValue l₂ := by
  rw [digitsValue, List.foldl_append, foldl_digitsValue]
  rfl

theorem digitChar_digit (k : ℕ) (hk : k < 10) :
    (Nat.digitChar k).isDigit ∧ (Nat.digitChar k).toNat - '0'.toNat = k := by
  have h : ∀ k : Fin 10, (Nat.digitChar k).isDigit ∧ (Nat.digitChar k).toNat - '0'.toNat = k := by
    decide
  exact h ⟨k, hk⟩

theorem toDigitsCore_digits (fuel n : ℕ) (ds : List Char) (hn : n < fuel) :
    Nat.toDigitsCore 10 fuel n ds ≠ [] ∧
      ((Nat.toDigitsCore 10 fuel n ds).all Char.isDigit = ds.all Char.isDigit) ∧
      digitsValue (Nat.toDigitsCore 10 fuel n ds) = n * 10 ^ ds.length + digitsValue ds := by
  induction fuel generalizing n ds with
  | zero => omega
  | succ fuel ih =>
    obtain ⟨hd, hv⟩ := digitChar_digit (n % 10) (Nat.mod_lt _ (by decide))
    have hcons : digitsValue (Nat.digitChar (n % 10) :: ds) =
        n % 10 * 10 ^ ds.length + digitsValue ds := by
      rw [← List.singleton_append, digitsValue_append]
      simp only [digitsValue, List.foldl_cons, List.foldl_nil, hv, mul_zero, zero_add,
        List.length_singleton]
    unfold Nat.toDigitsCore
    dsimp only
    split
    · rename_i h0
      refine ⟨List.cons_ne_nil _ _, by simp [hd], ?_⟩
      rw [hcons, Nat.mod_eq_of_lt (by omega)]
    · rename_i h0
      obtain ⟨hne, hall, hval⟩ := ih (n / 10) (Nat.digitChar (n % 10) :: ds) (by omega)
      refine ⟨hne, by simp [hall, hd], ?_⟩
      rw [hval, hcons, List.length_cons, pow_succ]
      conv_rhs => rw [← Nat.div_add_mod n 10]
      ring

theorem parseUnsigned_digits {bound : ℕ} {ds : List Char} (hne : ds ≠ [])
    (hall : ∀ ch ∈ ds, ch.isDigit) (hlt : digitsValue ds < bound) :
    parseUnsigned bound ⟨ds⟩ = some (digitsValue ds) := by
  obtain ⟨d, rest, rfl⟩ := List.exists_cons_of_ne_nil hne
  have hd : d ≠ '+' := by
    rintro rfl
    exact absurd (hall '+' (List.mem_cons_self _ _)) (by decide)
  simp [parseUnsigned, hd, hlt, List.all_eq_true.2 hall]

/-- `SGFuzzConfig::dst_port` reads back every port written in decimal after the last slash of
`netinfo`, whatever stands before the slash. -/
theorem dstPort_netinfo (c : SGFuzzConfig) (s : String) (port : ℕ) (h : port < 2 ^ 16) :
    { c with netinfo := s ++ "/" ++ toString port }.dstPort = some (UInt16.ofNat port) := by
  obtain ⟨hne, hall, hval⟩ : Nat.toDigits 10 port ≠ [] ∧
      (∀ ch ∈ Nat.toDigits 10 port, ch.isDigit) ∧ digitsValue (Nat.toDigits 10 port) = port := by
    simpa [List.all_eq_true, digitsValue] using
      toDigitsCore_digits (port + 1) port [] (Nat.lt_succ_self _)
  have htake : ((s ++ "/" ++ toString port).toList.reverse.takeWhile (· ≠ '/')).reverse =
      Nat.toDigits 10 port := by
    show ((s.data ++ ['/'] ++ Nat.toDigits 10 port).reverse.takeWhile _).reverse = _
    rw [List.reverse_append, List.takeWhile_append_of_pos fun ch hch => ?_]
    · simp
    · have hd := hall ch (List.mem_reverse.1 hch)
      simp only [ne_eq, decide_eq_true_eq]
      rintro rfl
      exact absurd hd (by decide)
  rw [SGFuzzConfig.dstPort, htake, parseUnsigned_digits hne hall (hval.symm ▸ h), hval]
  rfl

theorem aflnetStyle_dstPort :
    8554 < 2 ^ 16 ∧
      ({ (⟨⟨"/bin/sgfuzz"⟩, [], none, ⟨"/input"⟩, ""⟩ : SGFuzzConfig) with
          netinfo := "tcp://127.0.0.1" ++ "/" ++ toString 8554 }).dstPort =
        some (UInt16.ofNat 8554) :=
  ⟨by decide, dstPort_netinfo _ _ _ (by decide)⟩

end FuzztructionNet.Configuration
