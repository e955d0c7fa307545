import FuzztructionNet.Config.Keys

/-!
# The order of keys

`yaml_rust` loads a mapping as a `LinkedHashMap`: its keys are distinct and keep the order of the
file. `from_str` reads an attribute by its key, hands whole mappings to the section parsers, and
checks the keys of a mapping as a set (`check_for_unparsed_keys` collects them in a `HashSet`).
So the order in which a file lists the keys of its mappings should not matter, and this module
proves that it does not: on two first documents that differ only in that order, at any depth
reached through mappings, `from_str` returns the same configuration, or panics on both, or
returns an error on both. Sequences keep their order.

`Reorder y y'` says that `y'` is `y` with the entries of its mappings permuted. `Agree R p q` says
that two parses end alike. Each parser is taken through once: a lookup finds reordered values
(`Reorder.index`), every converter but the one for `Hash` rejects a mapping (`RejectsHash`), and
the check sees the same keys. Errors are compared only as errors: a `ConvertionFailed` prints the
value it rejects, in the order of its own document.
-/

namespace FuzztructionNet.Configuration

open Parse

namespace Yaml

mutual
/-- `y'` is `y` with the entries of its mappings reordered, at every depth reached through
mappings. -/
inductive Reorder : Yaml → Yaml → Prop
  | refl (y : Yaml) : Reorder y y
  | hash {es fs es' : List (Yaml × Yaml)} :
      ReorderEntries es fs → fs.Perm es' → Reorder (Yaml.hash es) (Yaml.hash es')
/-- The same keys in the same order, each value reordered. -/
inductive ReorderEntries : List (Yaml × Yaml) → List (Yaml × Yaml) → Prop
  | nil : ReorderEntries [] []
  | cons {k v v' : Yaml} {es es' : List (Yaml × Yaml)} :
      Reorder v v' → ReorderEntries es es' → ReorderEntries ((k, v) :: es) ((k, v') :: es')
end

mutual
/-- The keys of every mapping reached through mappings are distinct, as in what `yaml_rust`
loads. -/
def nodupKeys : Yaml → Bool
  | hash es => (es.map Prod.fst).Nodup && nodupKeysEntries es
  | _ => true
def nodupKeysEntries : List (Yaml × Yaml) → Bool
  | [] => true
  | (_, v) :: es => nodupKeys v && nodupKeysEntries es
end

/-! ## Lookups in a reordered mapping -/

theorem ReorderEntries.refl : ∀ es : List (Yaml × Yaml), ReorderEntries es es
  | [] => .nil
  | (_, v) :: es => .cons (.refl v) (ReorderEntries.refl es)

theorem ReorderEntries.map_fst {es fs : List (Yaml × Yaml)} (h : ReorderEntries es fs) :
    es.map Prod.fst = fs.map Prod.fst := by
  induction es generalizing fs with
  | nil => cases h; rfl
  | cons e es ih => cases h with
    | cons _ h => simp [ih h]

theorem lookup_eq_of_mem {k : String} {v : Yaml} {es : List (Yaml × Yaml)}
    (hnd : (es.map Prod.fst).Nodup) (h : (string k, v) ∈ es) : lookup k es = v := by
  induction es with
  | nil => cases h
  | cons e es ih =>
    obtain ⟨k', v'⟩ := e
    simp only [List.map_cons, List.nodup_cons, List.mem_map] at hnd
    rcases List.mem_cons.1 h with he | he
    · cases he
      simp [lookup]
    · have hk : k' ≠ string k := fun hk => hnd.1 ⟨_, he, hk.symm⟩
      simp only [lookup, if_neg hk]
      exact ih hnd.2 he

theorem lookup_eq_badValue {k : String} {es : List (Yaml × Yaml)}
    (h : ∀ v, (string k, v) ∉ es) : lookup k es = badValue := by
  induction es with
  | nil => rfl
  | cons e es ih =>
    obtain ⟨k', v'⟩ := e
    have hk : k' ≠ string k := by
      rintro rfl
      exact h v' (List.mem_cons_self _ _)
    simp only [lookup, if_neg hk]
    exact ih fun v hv => h v (List.mem_cons_of_mem _ hv)

/-- Under distinct keys, the order of a mapping's entries does not change a lookup. -/
theorem lookup_perm {k : String} {es es' : List (Yaml × Yaml)} (hp : es.Perm es')
    (hnd : (es.map Prod.fst).Nodup) : lookup k es = lookup k es' := by
  have hnd' : (es'.map Prod.fst).Nodup := (hp.map _).nodup_iff.1 hnd
  by_cases hm : ∃ v, (string k, v) ∈ es
  · obtain ⟨v, hv⟩ := hm
    rw [lookup_eq_of_mem hnd hv, lookup_eq_of_mem hnd' (hp.subset hv)]
  · push_neg at hm
    rw [lookup_eq_badValue hm, lookup_eq_badValue fun v hv => hm v (hp.symm.subset hv)]

theorem lookup_reorderEntries {k : String} {es fs : List (Yaml × Yaml)} (h : ReorderEntries es fs) :
    Reorder (lookup k es) (lookup k fs) ∧ (nodupKeysEntries es → nodupKeys (lookup k es)) := by
  induction es generalizing fs with
  | nil => cases h; exact ⟨.refl _, fun _ => rfl⟩
  | cons e es ih =>
    cases h with
    | @cons k' v v' _ es' hv h =>
      by_cases hk : k' = string k
      · simp only [lookup, if_pos hk, nodupKeysEntries, Bool.and_eq_true]
        exact ⟨hv, And.left⟩
      · simp only [lookup, if_neg hk, nodupKeysEntries, Bool.and_eq_true]
        exact ⟨(ih h).1, fun hn => (ih h).2 hn.2⟩

theorem nodupKeys_index {y : Yaml} (hn : nodupKeys y) (k : String) : nodupKeys (y.index k) := by
  cases y with
  | hash es =>
    simp only [nodupKeys, Bool.and_eq_true] at hn
    exact (lookup_reorderEntries (ReorderEntries.refl es)).2 hn.2
  | _ => rfl

/-- A lookup in two reorderings of a mapping whose keys are distinct finds reorderings of one
value, with distinct keys. -/
theorem Reorder.index {y y' : Yaml} (h : Reorder y y') (hn : nodupKeys y) (k : String) :
    Reorder (y.index k) (y'.index k) ∧ nodupKeys (y.index k) := by
  refine ⟨?_, nodupKeys_index hn k⟩
  cases h with
  | refl => exact .refl _
  | @hash es fs es' hes hp =>
    simp only [nodupKeys, Bool.and_eq_true, decide_eq_true_eq] at hn
    have hnd : (fs.map Prod.fst).Nodup := hes.map_fst ▸ hn.1
    show Reorder (lookup k es) (lookup k es')
    rw [← lookup_perm hp hnd]
    exact (lookup_reorderEntries hes).1

/-- `check_for_unparsed_keys` collects the keys as strings: it fails exactly when one is not. -/
theorem mapM_asStr_eq_none {es : List (Yaml × Yaml)} :
    es.mapM (fun e => e.1.asStr) = none ↔ ∃ x ∈ es.map Prod.fst, x.asStr = none := by
  induction es with
  | nil => exact iff_of_false (Option.some_ne_none _) (by simp)
  | cons e es ih =>
    simp only [List.mapM_cons, List.map_cons, List.mem_cons, exists_eq_or_imp, ← ih]
    cases e.1.asStr <;> cases es.mapM (fun e => e.1.asStr) <;> simp

theorem mem_of_mapM_asStr {es : List (Yaml × Yaml)} {keys : List String}
    (h : es.mapM (fun e => e.1.asStr) = some keys) {k : String} (hk : k ∈ keys) :
    ∃ e ∈ es, e.1 = string k := by
  induction es generalizing keys with
  | nil => cases h; cases hk
  | cons e es ih =>
    simp only [List.mapM_cons, Option.bind_eq_bind, Option.bind_eq_some, Option.pure_def,
      Option.some.injEq] at h
    obtain ⟨k', hk', ks, hks, rfl⟩ := h
    rcases List.mem_cons.1 hk with rfl | hk
    · exact ⟨e, List.mem_cons_self _ _, asStr_eq_some.1 hk'⟩
    · obtain ⟨e', he', h'⟩ := ih hks hk
      exact ⟨e', List.mem_cons_of_mem _ he', h'⟩

end Yaml

/-! ## Parses that end alike -/

namespace Parse

/-- Two parses end alike: both return, with values related by `R`; both return an error; or
both panic. Neither the logs nor the errors are compared: an error that prints a value prints
it as it stands in its own document. -/
def Agree (R : α → β → Prop) (p : Parse α) (q : Parse β) : Prop :=
  match (p : Except Fault (α × List Access)), (q : Except Fault (β × List Access)) with
  | .ok (a, _), .ok (b, _) => R a b
  | .error .panic, .error .panic => True
  | .error (.err _), .error (.err _) => True
  | _, _ => False

variable {R : α → β → Prop} {S : γ → δ → Prop}

@[simp] theorem error_eq_error {e e' : Fault} :
    @Eq (Parse α) (Except.error e) (Except.error e') ↔ e = e' :=
  ⟨Except.error.inj, congrArg _⟩

theorem Agree.refl (p : Parse α) : Agree Eq p p := by
  rcases (p : Except Fault (α × List Access)) with (_ | _) | _ <;> trivial

theorem Agree.pure {a : α} {b : β} (h : R a b) : Agree R (pure a) (pure b) := h

theorem Agree.self {R : α → α → Prop} {p : Parse α} (h : ∀ a l, p = .ok (a, l) → R a a) :
    Agree R p p := by
  revert h
  rcases (p : Except Fault (α × List Access)) with (_ | _) | ⟨a, l⟩ <;>
    simp only [Agree, implies_true]
  exact fun h => h _ _ rfl

theorem Agree.bind {p : Parse α} {q : Parse β} {f : α → Parse γ} {g : β → Parse δ}
    (h : Agree R p q) (hf : ∀ a b, R a b → Agree S (f a) (g b)) :
    Agree S (p >>= f) (q >>= g) := by
  show Agree S (Parse.bind p f) (Parse.bind q g)
  unfold Parse.bind
  rcases hp : (p : Except Fault (α × List Access)) with (_ | _) | ⟨a, _⟩ <;>
    rcases hq : (q : Except Fault (β × List Access)) with (_ | _) | ⟨b, _⟩ <;>
    simp only [Agree, hp, hq] at h ⊢
  have hab := hf a b h
  rcases hfa : (f a : Except Fault (γ × List Access)) with (_ | _) | _ <;>
    rcases hgb : (g b : Except Fault (δ × List Access)) with (_ | _) | _ <;>
    simp only [Agree, hfa, hgb] at hab ⊢
  exact hab

theorem Agree.bind_eq {p q : Parse α} {f : α → Parse γ} {g : α → Parse δ} (h : Agree Eq p q)
    (hf : ∀ a, Agree S (f a) (g a)) : Agree S (p >>= f) (q >>= g) :=
  h.bind fun a _ hab => hab ▸ hf a

theorem Agree.withContext {p : Parse α} {q : Parse β} (h : Agree R p q) (msg : String) :
    Agree R (withContext msg p) (withContext msg q) := by
  revert h
  unfold Parse.withContext Configuration.withContext
  rcases (p : Except Fault (α × List Access)) with (_ | _) | _ <;>
    rcases (q : Except Fault (β × List Access)) with (_ | _) | _ <;> exact id

theorem Agree.read {y y' : Yaml} (k : String) :
    Agree (fun v v' => v = y.index k ∧ v' = y'.index k) (read y k) (read y' k) :=
  ⟨rfl, rfl⟩

theorem Agree.ok_iff {p q : Parse α} (h : Agree Eq p q) (a : α) :
    (∃ l, p = .ok (a, l)) ↔ ∃ l, q = .ok (a, l) := by
  revert h
  rcases (p : Except Fault (α × List Access)) with (_ | _) | ⟨a₁, l₁⟩ <;>
    rcases (q : Except Fault (α × List Access)) with (_ | _) | ⟨a₂, l₂⟩ <;>
    simp [Agree]
  rintro rfl
  rfl

theorem Agree.panic_iff {p : Parse α} {q : Parse β} (h : Agree R p q) :
    p = .error .panic ↔ q = .error .panic := by
  revert h
  rcases (p : Except Fault (α × List Access)) with (_ | _) | ⟨a₁, l₁⟩ <;>
    rcases (q : Except Fault (β × List Access)) with (_ | _) | ⟨a₂, l₂⟩ <;>
    simp [Agree]

end Parse

/-! ## Converters on mappings -/

/-- A converter that returns an error on every mapping. All the converters `get_attribute` is
called with do, but the one for `yaml_rust::yaml::Hash`. -/
class RejectsHash (α : Type) [TryFromYaml α] : Prop where
  rejects : ∀ (b : ConfigBuilder) (es : List (Yaml × Yaml)),
    ∃ e, (tryFromYaml b (.hash es) : Outcome α) = .error (.err e)

instance : RejectsHash String := ⟨fun _ _ => ⟨_, rfl⟩⟩
instance : RejectsHash PathBuf := ⟨fun _ _ => ⟨_, rfl⟩⟩
instance : RejectsHash Bool := ⟨fun _ _ => ⟨_, rfl⟩⟩
instance : RejectsHash UInt32 := ⟨fun _ _ => ⟨_, rfl⟩⟩
instance : RejectsHash Int := ⟨fun _ _ => ⟨_, rfl⟩⟩
instance : RejectsHash MutationSiteID := ⟨fun _ _ => ⟨_, rfl⟩⟩
instance : RejectsHash InputChannel := ⟨fun _ _ => ⟨_, rfl⟩⟩
instance : RejectsHash OutputChannel := ⟨fun _ _ => ⟨_, rfl⟩⟩
instance : RejectsHash ServerReadySignalKind := ⟨fun _ _ => ⟨_, rfl⟩⟩
instance : RejectsHash Duration := ⟨fun _ _ => ⟨_, rfl⟩⟩
instance : RejectsHash LLVMInstruction := ⟨fun _ _ => ⟨_, rfl⟩⟩
instance : RejectsHash (List (String × String)) := ⟨fun _ _ => ⟨_, rfl⟩⟩
instance [TryFromYaml α] : RejectsHash (List α) := ⟨fun _ _ => ⟨_, rfl⟩⟩

instance [TryFromYaml α] [RejectsHash α] : RejectsHash (Option α) := by
  refine ⟨fun b es => ?_⟩
  obtain ⟨e, he⟩ := RejectsHash.rejects (α := α) b es
  exact ⟨e, show some <$> (tryFromYaml b (.hash es) : Outcome α) = _ by rw [he]; rfl⟩

/-! ## The primitives on two reorderings -/

theorem checkForUnparsedKeys_hash_eq_panic {es : List (Yaml × Yaml)} {E : List String} :
    checkForUnparsedKeys (.hash es) E = .error .panic ↔ ∃ x ∈ es.map Prod.fst, x.asStr = none := by
  rw [← Yaml.mapM_asStr_eq_none]
  unfold checkForUnparsedKeys
  simp only [Yaml.asHash]
  cases es.mapM (fun e => e.1.asStr) with
  | none => exact iff_of_true rfl rfl
  | some keys =>
    refine iff_of_false ?_ (Option.some_ne_none _)
    dsimp only
    split <;> rintro ⟨⟩

theorem checkForUnparsedKeys_hash_ok {es : List (Yaml × Yaml)} {E : List String} :
    (∃ l, checkForUnparsedKeys (.hash es) E = .ok ((), l)) ↔
      ∀ x ∈ es.map Prod.fst, ∃ k, x = .string k ∧ k ∈ E := by
  rw [List.forall_mem_map]
  unfold checkForUnparsedKeys
  simp only [Yaml.asHash]
  cases hm : es.mapM (fun e => e.1.asStr) with
  | none =>
    obtain ⟨x, hx, hs⟩ := Yaml.mapM_asStr_eq_none.1 hm
    obtain ⟨e, he, rfl⟩ := List.mem_map.1 hx
    refine iff_of_false (by rintro ⟨l, ⟨⟩⟩) fun h => ?_
    obtain ⟨k, hk, -⟩ := h e he
    rw [hk] at hs
    cases hs
  | some keys =>
    dsimp only
    cases hf : keys.find? (fun k => !E.contains k) with
    | some k =>
      have hk : k ∉ E := by simpa [List.contains, List.elem_eq_mem] using List.find?_some hf
      obtain ⟨e, he, hek⟩ := Yaml.mem_of_mapM_asStr hm (List.mem_of_find?_eq_some hf)
      refine iff_of_false (by rintro ⟨l, ⟨⟩⟩) fun h => ?_
      obtain ⟨k', hk', hin⟩ := h e he
      rw [hek, Yaml.string.injEq] at hk'
      exact hk (hk' ▸ hin)
    | none =>
      refine iff_of_true ⟨_, rfl⟩ fun e he => ?_
      obtain ⟨k, hk, hek⟩ := keys_of_mapM_asStr hm e he
      exact ⟨k, hek, by simpa [List.contains, List.elem_eq_mem] using List.find?_eq_none.1 hf k hk⟩

theorem agree_unit {p q : Parse Unit} (hok : (∃ l, p = .ok ((), l)) ↔ ∃ l, q = .ok ((), l))
    (hpanic : p = .error .panic ↔ q = .error .panic) : Agree Eq p q := by
  revert hok hpanic
  rcases (p : Except Fault (Unit × List Access)) with (_ | _) | ⟨⟨⟩, l₁⟩ <;>
    rcases (q : Except Fault (Unit × List Access)) with (_ | _) | ⟨⟨⟩, l₂⟩ <;>
    simp [Agree]

namespace Yaml

variable {b : ConfigBuilder} {y y' : Yaml}

/-- `check_for_unparsed_keys` ends alike on two reorderings: it sees the same keys. -/
theorem Reorder.checkForUnparsedKeys (h : Reorder y y') (E : List String) :
    Agree Eq (checkForUnparsedKeys y E) (checkForUnparsedKeys y' E) := by
  cases h with
  | refl => exact .refl _
  | @hash es fs es' hes hp =>
    have hk : ∀ x, x ∈ es.map Prod.fst ↔ x ∈ es'.map Prod.fst := fun _ =>
      (hes.map_fst ▸ hp.map Prod.fst).mem_iff
    refine agree_unit ?_ ?_
    · simp only [checkForUnparsedKeys_hash_ok, hk]
    · simp only [checkForUnparsedKeys_hash_eq_panic, hk]

theorem Reorder.tryFromYaml [TryFromYaml α] [RejectsHash α] {v v' : Yaml} (h : Reorder v v')
    (msg : String) : Agree Eq (lift (withContext msg (tryFromYaml b v : Outcome α)))
      (lift (withContext msg (tryFromYaml b v'))) := by
  cases h with
  | refl => exact .refl _
  | hash =>
    obtain ⟨e, he⟩ := RejectsHash.rejects (α := α) b _
    obtain ⟨e', he'⟩ := RejectsHash.rejects (α := α) b _
    rw [he, he']
    trivial

theorem Reorder.read_bind {f g : Yaml → Parse γ} (h : Reorder y y') (hn : y.nodupKeys)
    (k : String) (hf : ∀ s s', Reorder s s' → s.nodupKeys → Agree S (f s) (g s')) :
    Agree S (read y k >>= f) (read y' k >>= g) :=
  (Agree.read k).bind fun _ _ ⟨hv, hv'⟩ => hv ▸ hv' ▸ hf _ _ (h.index hn k).1 (h.index hn k).2

/-- `get_attribute` ends alike on two reorderings, for every converter but the one for `Hash`. -/
theorem Reorder.getAttribute [TryFromYaml α] [RejectsHash α] (h : Reorder y y')
    (hn : y.nodupKeys) (k : String) :
    Agree Eq (Configuration.getAttribute b y k : Parse α) (Configuration.getAttribute b y' k) :=
  h.read_bind hn k fun _ _ hs _ => hs.tryFromYaml _

theorem tryFromYaml_optionHash_eq_some {v : Yaml} {es : List (Yaml × Yaml)}
    (h : (Configuration.tryFromYaml b v : Outcome (Option (List (Yaml × Yaml)))) = .ok (some es)) :
    v = .hash es := by
  revert h
  show (if v.isBadValue || v.isNull then pure none
    else if _ then pure none else some <$> okOr v.asHash _) = _ → _
  split_ifs
  · exact fun h => Option.noConfusion (Except.ok.inj h)
  · exact fun h => Option.noConfusion (Except.ok.inj h)
  · cases hv : v.asHash with
    | none => rintro ⟨⟩
    | some es' => rintro ⟨⟩; exact asHash_eq_some.1 hv

/-- `get_optional_section` finds, in two reorderings, either no section in both or two
reorderings of one section, with distinct keys. -/
theorem Reorder.getOptionalSection (h : Reorder y y') (hn : y.nodupKeys) (k : String) :
    Agree (Option.Rel fun s s' => Reorder s s' ∧ s.nodupKeys)
      (Configuration.getOptionalSection b y k) (Configuration.getOptionalSection b y' k) := by
  refine (h.read_bind hn k
    (S := Option.Rel fun es es' => Reorder (.hash es) (.hash es') ∧ (Yaml.hash es).nodupKeys)
    fun v v' hr hnv => ?_).bind fun o o' ho => Agree.pure ?_
  · cases hr with
    | refl =>
      refine Agree.self fun o l ho => ?_
      obtain ⟨ho, -⟩ := lift_eq_ok.1 ho
      cases o with
      | none => exact .none
      | some es =>
        have hv := tryFromYaml_optionHash_eq_some (withContext_eq_ok.1 ho)
        exact .some ⟨.refl _, hv ▸ hnv⟩
    | hash hes hp => exact .some ⟨.hash hes hp, hnv⟩
  · cases ho with
    | none => exact .none
    | some h => exact .some h

/-! ## Sections -/

theorem Reorder.isBadValue_eq (h : Reorder y y') : y.isBadValue = y'.isBadValue := by
  cases h <;> rfl

theorem Reorder.ite_isBadValue {d : Parse α} {F : Yaml → Parse α} (h : Reorder y y')
    (hF : Agree Eq (F y) (F y')) :
    Agree Eq (if y.isBadValue then d else F y) (if y'.isBadValue then d else F y') := by
  rw [h.isBadValue_eq]
  split
  · exact .refl _
  · exact hF

theorem Reorder.requireSection (h : Reorder y y') (name : String) :
    Agree Eq (Configuration.requireSection name y) (Configuration.requireSection name y') :=
  h.ite_isBadValue (F := fun _ => pure ()) (.refl _)

theorem Reorder.optionalSection {parse : Yaml → Parse α} (h : Reorder y y')
    (hp : Agree Eq (parse y) (parse y')) :
    Agree Eq (Configuration.optionalSection y parse) (Configuration.optionalSection y' parse) :=
  h.ite_isBadValue (F := fun s => parse s >>= fun c => pure (some c)) (hp.bind_eq fun _ => .refl _)

theorem agree_elim {o o' : Option Yaml} {d : α} {F : Yaml → Parse α}
    (ho : Option.Rel (fun s s' => Reorder s s' ∧ s.nodupKeys) o o')
    (hF : ∀ s s', Reorder s s' → s.nodupKeys → Agree Eq (F s) (F s')) :
    Agree Eq (o.elim (pure d) F) (o'.elim (pure d) F) := by
  cases ho with
  | none => exact .refl _
  | some h => exact hF _ _ h.1 h.2

/-! ## The section parsers on two reorderings -/

theorem Reorder.parseGeneralSection (h : Reorder y y') (hn : y.nodupKeys) :
    Agree Eq (Configuration.parseGeneralSection b y) (Configuration.parseGeneralSection b y') := by
  unfold Configuration.parseGeneralSection
  iterate 5 refine (h.getAttribute hn _).bind_eq fun _ => ?_
  exact (Agree.refl _).bind_eq fun _ => (h.checkForUnparsedKeys _).bind_eq fun _ => .refl _

theorem Reorder.parseSourceSection (h : Reorder y y') (hn : y.nodupKeys) :
    Agree Eq (Configuration.parseSourceSection b y) (Configuration.parseSourceSection b y') := by
  unfold Configuration.parseSourceSection
  iterate 15 refine (h.getAttribute hn _).bind_eq fun _ => ?_
  exact (h.checkForUnparsedKeys _).bind_eq fun _ => .refl _

theorem Reorder.parseDiscoveryPhaseSection (h : Reorder y y') (hn : y.nodupKeys) :
    Agree Eq (Configuration.parseDiscoveryPhaseSection b y)
      (Configuration.parseDiscoveryPhaseSection b y') := by
  unfold Configuration.parseDiscoveryPhaseSection
  iterate 5 refine (h.getAttribute hn _).bind_eq fun _ => ?_
  exact (h.checkForUnparsedKeys _).bind_eq fun _ => .refl _

theorem Reorder.parseMutatePhaseSection (h : Reorder y y') (hn : y.nodupKeys) :
    Agree Eq (Configuration.parseMutatePhaseSection b y)
      (Configuration.parseMutatePhaseSection b y') := by
  unfold Configuration.parseMutatePhaseSection
  iterate 2 refine (h.getAttribute hn _).bind_eq fun _ => ?_
  exact (h.checkForUnparsedKeys _).bind_eq fun _ => .refl _

theorem Reorder.parseAddPhaseSection (h : Reorder y y') (hn : y.nodupKeys) :
    Agree Eq (Configuration.parseAddPhaseSection b y) (Configuration.parseAddPhaseSection b y') := by
  unfold Configuration.parseAddPhaseSection
  iterate 6 refine (h.getAttribute hn _).bind_eq fun _ => ?_
  exact (h.checkForUnparsedKeys _).bind_eq fun _ => .refl _

theorem Reorder.parseCombinePhaseSection (h : Reorder y y') (hn : y.nodupKeys) :
    Agree Eq (Configuration.parseCombinePhaseSection b y)
      (Configuration.parseCombinePhaseSection b y') := by
  unfold Configuration.parseCombinePhaseSection
  iterate 2 refine (h.getAttribute hn _).bind_eq fun _ => ?_
  exact (h.checkForUnparsedKeys _).bind_eq fun _ => .refl _

theorem Reorder.parsePhasesSection (h : Reorder y y') (hn : y.nodupKeys) :
    Agree Eq (Configuration.parsePhasesSection b y) (Configuration.parsePhasesSection b y') := by
  unfold Configuration.parsePhasesSection
  refine (h.getAttribute hn _).bind_eq fun _ => ?_
  refine (h.getOptionalSection hn _).bind fun _ _ ho => (agree_elim ho fun _ _ hs hns =>
    (hs.parseDiscoveryPhaseSection hns).withContext _).bind_eq fun _ => ?_
  refine (h.getOptionalSection hn _).bind fun _ _ ho => (agree_elim ho fun _ _ hs hns =>
    (hs.parseMutatePhaseSection hns).withContext _).bind_eq fun _ => ?_
  refine (h.getOptionalSection hn _).bind fun _ _ ho => (agree_elim ho fun _ _ hs hns =>
    (hs.parseAddPhaseSection hns).withContext _).bind_eq fun _ => ?_
  refine (h.getOptionalSection hn _).bind fun _ _ ho => (agree_elim ho fun _ _ hs hns =>
    (hs.parseCombinePhaseSection hns).withContext _).bind_eq fun _ => ?_
  exact (h.checkForUnparsedKeys _).bind_eq fun _ => .refl _

theorem Reorder.parseAflSection {mk : PathBuf → List (String × String) → PathBuf → String →
    String → Bool → Bool → γ} (h : Reorder y y') (hn : y.nodupKeys) :
    Agree Eq (Configuration.parseAflSection mk b y) (Configuration.parseAflSection mk b y') := by
  unfold Configuration.parseAflSection
  iterate 7 refine (h.getAttribute hn _).bind_eq fun _ => ?_
  exact (h.checkForUnparsedKeys _).bind_eq fun _ => .refl _

theorem Reorder.parseAflNetSection (h : Reorder y y') (hn : y.nodupKeys) :
    Agree Eq (Configuration.parseAflNetSection b y) (Configuration.parseAflNetSection b y') :=
  h.parseAflSection hn

theorem Reorder.parseStateAflSection (h : Reorder y y') (hn : y.nodupKeys) :
    Agree Eq (Configuration.parseStateAflSection b y) (Configuration.parseStateAflSection b y') :=
  h.parseAflSection hn

theorem Reorder.parseSgfuzzSection (h : Reorder y y') (hn : y.nodupKeys) :
    Agree Eq (Configuration.parseSgfuzzSection b y) (Configuration.parseSgfuzzSection b y') := by
  unfold Configuration.parseSgfuzzSection
  iterate 5 refine (h.getAttribute hn _).bind_eq fun _ => ?_
  exact (h.checkForUnparsedKeys _).bind_eq fun _ => .refl _

theorem Reorder.parseSinkSection (h : Reorder y y') (hn : y.nodupKeys) :
    Agree Eq (Configuration.parseSinkSection b y) (Configuration.parseSinkSection b y') := by
  unfold Configuration.parseSinkSection
  iterate 13 refine (h.getAttribute hn _).bind_eq fun _ => ?_
  exact ((h.checkForUnparsedKeys _).withContext _).bind_eq fun _ => .refl _

theorem Reorder.parseSinkCovSection (h : Reorder y y') (hn : y.nodupKeys) :
    Agree Eq (Configuration.parseSinkCovSection b y) (Configuration.parseSinkCovSection b y') := by
  unfold Configuration.parseSinkCovSection
  iterate 3 refine (h.getAttribute hn _).bind_eq fun _ => ?_
  exact (h.checkForUnparsedKeys _).bind_eq fun _ => .refl _

theorem Reorder.parseVanillaSection (h : Reorder y y') (hn : y.nodupKeys) (arguments : List String) :
    Agree Eq (Configuration.parseVanillaSection b y arguments)
      (Configuration.parseVanillaSection b y' arguments) := by
  unfold Configuration.parseVanillaSection
  iterate 2 refine (h.getAttribute hn _).bind_eq fun _ => ?_
  exact (h.checkForUnparsedKeys _).bind_eq fun _ => .refl _

/-! ## `from_str` -/

theorem firstDocument_agree (ds ds' : List Yaml) :
    Agree (fun a a' => a = y ∧ a' = y') (firstDocument (y :: ds)) (firstDocument (y' :: ds')) :=
  ⟨rfl, rfl⟩

theorem Reorder.fromStr (h : Reorder y y') (hn : y.nodupKeys) (ds ds' : List Yaml) :
    Agree Eq (Configuration.fromStr b (y :: ds)) (Configuration.fromStr b (y' :: ds')) := by
  unfold Configuration.fromStr
  refine Agree.bind (R := fun a a' => a = y ∧ a' = y') (firstDocument_agree ds ds')
    fun _ _ ⟨ha, ha'⟩ => ha ▸ ha' ▸ ?_
  refine (h.parseGeneralSection hn).bind_eq fun _ => ?_
  refine h.read_bind hn _ fun _ _ hs hns => (hs.requireSection _).bind_eq fun _ =>
    (hs.parseSourceSection hns).bind_eq fun _ => ?_
  refine h.read_bind hn _ fun _ _ hs hns =>
    (hs.ite_isBadValue (hs.parsePhasesSection hns)).bind_eq fun _ => ?_
  refine h.read_bind hn _ fun _ _ hs hns => (hs.requireSection _).bind_eq fun _ =>
    (hs.parseSinkSection hns).bind_eq fun _ => ?_
  refine h.read_bind hn _ fun _ _ hs hns =>
    (hs.optionalSection (hs.parseSinkCovSection hns)).bind_eq fun _ => ?_
  refine h.read_bind hn _ fun _ _ hs hns =>
    (hs.optionalSection (hs.parseAflNetSection hns)).bind_eq fun _ => ?_
  refine h.read_bind hn _ fun _ _ hs hns =>
    (hs.optionalSection (hs.parseStateAflSection hns)).bind_eq fun _ => ?_
  refine h.read_bind hn _ fun _ _ hs hns =>
    (hs.optionalSection (hs.parseSgfuzzSection hns)).bind_eq fun _ => ?_
  exact h.read_bind hn _ fun _ _ hs hns => (hs.requireSection _).bind_eq fun _ =>
    (hs.parseVanillaSection hns _).bind_eq fun _ => .refl _

end Yaml

/-- `from_str` does not depend on the order of the keys of the mappings it reads: on two
first documents that differ only in that order, with distinct keys in every mapping as
`yaml_rust` loads them, it returns the same configuration, or both calls panic, or both return
an error. -/
theorem fromStr_reorder {b : ConfigBuilder} {y y' : Yaml} {ds ds' : List Yaml}
    (h : y.Reorder y') (hn : y.nodupKeys) :
    (∀ c, (∃ L, fromStr b (y :: ds) = .ok (c, L)) ↔ ∃ L, fromStr b (y' :: ds') = .ok (c, L)) ∧
      (fromStr b (y :: ds) = .error .panic ↔ fromStr b (y' :: ds') = .error .panic) :=
  ⟨(h.fromStr hn ds ds').ok_iff, (h.fromStr hn ds ds').panic_iff⟩

def plainDocument : Yaml := .hash (documentAttrs (.hash (programAttrs "/bin/sink")))

def reversedDocument : Yaml :=
  .hash (documentAttrs (.hash (programAttrs "/bin/sink").reverse)).reverse

/-- The two reversals are reorderings: the sink section sits at the same place of the top-level
entries before the outer permutation. -/
theorem plainDocument_reorder : plainDocument.Reorder reversedDocument :=
  .hash (.cons (.refl _) <| .cons (.refl _) <| .cons (.refl _) <|
      .cons (.hash (.refl _) (List.reverse_perm _).symm) <| .cons (.refl _) .nil)
    (List.reverse_perm _).symm

theorem reversedDocument_fromStr :
    plainDocument.Reorder reversedDocument ∧ plainDocument.nodupKeys ∧
      (∀ c, (∃ L, fromStr rootBuilder [plainDocument] = .ok (c, L)) ↔
        ∃ L, fromStr rootBuilder [reversedDocument] = .ok (c, L)) ∧
      (fromStr rootBuilder [plainDocument] = .error .panic ↔
        fromStr rootBuilder [reversedDocument] = .error .panic) :=
  ⟨plainDocument_reorder, by decide, fromStr_reorder plainDocument_reorder (by decide)⟩

end FuzztructionNet.Configuration
