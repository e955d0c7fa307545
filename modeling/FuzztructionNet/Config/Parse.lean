import FuzztructionNet.Config.Yaml

/-!
# Parses and the lookups they make

A section parser of `ConfigBuilder` returns a value, returns an error or panics. The model also
keeps a log of two kinds of events: every lookup `yaml[key]` the parser makes, and every call
of `check_for_unparsed_keys` that passes. The log does not change what the parser computes. It
exists to state which keys of a mapping the parser reads.

`SoundAfter unread R p` says that in every successful run of `p`, each passed check covers the
whole mapping, and each key on the check's list is read before the run (in `R`) or during it.
The keys in `unread` are exempt. Its rules follow the program: one for a step whose log is
fixed (a lookup, a converter, a check) and one for a sub-parse. Each section parser is taken
through them once.
-/

namespace FuzztructionNet.Configuration

/-- One logged event of a parse. -/
inductive Access
  | read (yaml : Yaml) (key : String)
  | check (yaml : Yaml) (expected : List String)
  deriving DecidableEq

/-- A parse: its value and its log, or the fault it stops at. -/
def Parse (α : Type) : Type := Except Fault (α × List Access)

namespace Parse

/-- Sequencing: run `f` on the value of `p`, and append the two logs. -/
protected def bind (p : Parse α) (f : α → Parse β) : Parse β :=
  match (p : Except Fault (α × List Access)) with
  | .error e => .error e
  | .ok (a, l) => match (f a : Except Fault (β × List Access)) with
    | .error e => .error e
    | .ok (b, l') => .ok (b, l ++ l')

instance : Monad Parse where
  pure a := Except.ok (a, [])
  bind := Parse.bind

@[simp] theorem ok_eq_ok {x y : α × List Access} :
    @Eq (Parse α) (Except.ok x) (Except.ok y) ↔ x = y :=
  ⟨fun h => Except.ok.inj h, fun h => h ▸ rfl⟩

@[simp] theorem error_ne_ok {e : Fault} {x : α × List Access} :
    ¬ @Eq (Parse α) (Except.error e) (Except.ok x) :=
  fun h => Except.noConfusion h

def lift (r : Outcome α) : Parse α := r.map (·, [])

/-- `&yaml[key]`, logged. -/
def read (y : Yaml) (k : String) : Parse Yaml := Except.ok (y.index k, [.read y k])

def fail (e : Error) : Parse α := Except.error (.err e)

def withContext (msg : String) (p : Parse α) : Parse α := Configuration.withContext msg p

theorem pure_eq_ok {a b : α} {l : List Access} :
    (pure a : Parse α) = .ok (b, l) ↔ a = b ∧ l = [] := by
  show Except.ok (a, []) = _ ↔ _
  simp [ok_eq_ok, eq_comm]

theorem bind_eq_ok {p : Parse α} {f : α → Parse β} {b : β} {l : List Access} :
    p >>= f = .ok (b, l) ↔ ∃ a l₁ l₂, p = .ok (a, l₁) ∧ f a = .ok (b, l₂) ∧ l = l₁ ++ l₂ := by
  show Parse.bind p f = _ ↔ _
  constructor
  · intro h
    unfold Parse.bind at h
    split at h
    · cases h
    · rename_i a l₁
      split at h
      · cases h
      · rename_i b' l₂ hf
        cases h
        exact ⟨a, l₁, l₂, rfl, hf, rfl⟩
  · rintro ⟨a, l₁, l₂, hp, hf, rfl⟩
    simp only [Parse.bind, hp, hf]

theorem lift_eq_ok {r : Outcome α} {a : α} {l : List Access} :
    lift r = .ok (a, l) ↔ r = .ok a ∧ l = [] := by
  rcases r with e | a' <;> simp [lift, Except.map, ok_eq_ok, eq_comm, and_comm]

theorem read_eq_ok {y v : Yaml} {k : String} {l : List Access} :
    read y k = .ok (v, l) ↔ v = y.index k ∧ l = [.read y k] := by
  simp [read, ok_eq_ok, eq_comm]

theorem withContext_eq_ok {msg : String} {p : Parse α} {x : α × List Access} :
    withContext msg p = .ok x ↔ p = .ok x :=
  Configuration.withContext_eq_ok

end Parse

/-- The mapping `y` is a hash whose keys are strings on the list `expected`. -/
def KeysIn (y : Yaml) (expected : List String) : Prop :=
  ∃ entries, y = .hash entries ∧ ∀ e ∈ entries, ∃ k, e.1 = .string k ∧ k ∈ expected

/-- Every check logged in `l` passed, and every key on its list outside `unread` is read in
`R ++ l`. -/
def Sound (unread : List String) (R l : List Access) : Prop :=
  ∀ y E, Access.check y E ∈ l → KeysIn y E ∧ ∀ k ∈ E, k ∉ unread → Access.read y k ∈ R ++ l

/-- Every successful run of `p`, after the log `R`, logs a sound log. -/
def SoundAfter (unread : List String) (R : List Access) (p : Parse α) : Prop :=
  ∀ a l, p = .ok (a, l) → Sound unread R l

def Logs (x : Access) (p : Parse α) : Prop := ∀ a l, p = .ok (a, l) → x ∈ l

theorem logs_read (y : Yaml) (k : String) : Logs (.read y k) (Parse.read y k) := by
  intro a l h
  simp [(Parse.read_eq_ok.mp h).2]

theorem Logs.bind_left {x : Access} {p : Parse α} {f : α → Parse β} (h : Logs x p) :
    Logs x (p >>= f) := by
  intro b l hb
  obtain ⟨a, l₁, l₂, h₁, -, rfl⟩ := Parse.bind_eq_ok.mp hb
  exact List.mem_append_left _ (h a l₁ h₁)

theorem Logs.bind_right {x : Access} {p : Parse α} {f : α → Parse β} (h : ∀ a, Logs x (f a)) :
    Logs x (p >>= f) := by
  intro b l hb
  obtain ⟨a, l₁, l₂, -, h₂, rfl⟩ := Parse.bind_eq_ok.mp hb
  exact List.mem_append_right _ (h a b l₂ h₂)

/-- Every successful run of `p` returns a value satisfying `Q`. -/
def Returns (p : Parse α) (Q : α → Prop) : Prop := ∀ a l, p = .ok (a, l) → Q a

theorem returns_pure {Q : α → Prop} {a : α} (h : Q a) : Returns (pure a) Q := by
  intro b l hb
  obtain ⟨rfl, -⟩ := Parse.pure_eq_ok.mp hb
  exact h

theorem Returns.bind {p : Parse α} {f : α → Parse β} {P : α → Prop} {Q : β → Prop}
    (hp : Returns p P) (hf : ∀ a, P a → Returns (f a) Q) : Returns (p >>= f) Q := by
  intro b l hb
  obtain ⟨a, l₁, l₂, h₁, h₂, -⟩ := Parse.bind_eq_ok.mp hb
  exact hf a (hp a l₁ h₁) b l₂ h₂

theorem Returns.bind_right {p : Parse α} {f : α → Parse β} {Q : β → Prop}
    (hf : ∀ a, Returns (f a) Q) : Returns (p >>= f) Q :=
  Returns.bind (show Returns p fun _ => True from fun _ _ _ => trivial) fun a _ => hf a

section Rules

variable {unread : List String} {R l₀ : List Access}

theorem sound_read (y : Yaml) (k : String) : Sound unread R [.read y k] := by
  simp [Sound]

theorem sound_check {y : Yaml} {E : List String} (hkeys : KeysIn y E)
    (hread : ∀ k ∈ E, k ∉ unread → Access.read y k ∈ R) : Sound unread R [.check y E] := by
  intro y' E' h
  simp only [List.mem_singleton, Access.check.injEq] at h
  obtain ⟨rfl, rfl⟩ := h
  exact ⟨hkeys, fun k hk hu => List.mem_append_left _ (hread k hk hu)⟩

theorem Sound.mono {R' l : List Access} (h : Sound unread R l) (hR : R ⊆ R') :
    Sound unread R' l := by
  intro y E hc
  obtain ⟨hk, hr⟩ := h y E hc
  refine ⟨hk, fun k hkE hu => ?_⟩
  rcases List.mem_append.mp (hr k hkE hu) with h' | h'
  · exact List.mem_append_left _ (hR h')
  · exact List.mem_append_right _ h'

theorem soundAfter_pure (a : α) : SoundAfter unread R (pure a) := by
  intro b l h
  obtain ⟨-, rfl⟩ := Parse.pure_eq_ok.mp h
  simp [Sound]

theorem SoundAfter.bind_fixed {p : Parse α} {f : α → Parse β}
    (hp : ∀ a l, p = .ok (a, l) → l = l₀ ∧ Sound unread R l₀)
    (hf : ∀ a, SoundAfter unread (R ++ l₀) (f a)) : SoundAfter unread R (p >>= f) := by
  intro b l h
  obtain ⟨a, l₁, l₂, h₁, h₂, rfl⟩ := Parse.bind_eq_ok.mp h
  obtain ⟨rfl, hs₁⟩ := hp a l₁ h₁
  intro y E hc
  rw [← List.append_assoc]
  rcases List.mem_append.mp hc with hc | hc
  · exact (hs₁ y E hc).imp_right fun h k hk hu => List.mem_append_left _ (h k hk hu)
  · exact hf a b l₂ h₂ y E hc

theorem mem_append_middle {x : Access} {R l₁ l₂ : List Access} (h : x ∈ R ++ l₂) :
    x ∈ R ++ (l₁ ++ l₂) := by
  simp only [List.mem_append] at h ⊢
  tauto

theorem SoundAfter.bind_later {p : Parse α} {f : α → Parse β} {R' : List Access}
    (hp : SoundAfter unread R' p) (hlater : ∀ a, ∀ x ∈ R', Logs x (f a))
    (hf : ∀ a, SoundAfter unread R (f a)) : SoundAfter unread R (p >>= f) := by
  intro b l h
  obtain ⟨a, l₁, l₂, h₁, h₂, rfl⟩ := Parse.bind_eq_ok.mp h
  intro y E hc
  rcases List.mem_append.mp hc with hc | hc
  · refine (hp a l₁ h₁ y E hc).imp_right fun h k hk hu => ?_
    rcases List.mem_append.mp (h k hk hu) with h' | h'
    · exact List.mem_append_right _ (List.mem_append_right _ (hlater a _ h' b l₂ h₂))
    · exact List.mem_append_right _ (List.mem_append_left _ h')
  · exact (hf a b l₂ h₂ y E hc).imp_right fun h k hk hu => mem_append_middle (h k hk hu)

theorem SoundAfter.bind {p : Parse α} {f : α → Parse β} (hp : SoundAfter unread [] p)
    (hf : ∀ a, SoundAfter unread R (f a)) : SoundAfter unread R (p >>= f) :=
  SoundAfter.bind_later hp (fun _ _ h => absurd h (List.not_mem_nil _)) hf

theorem SoundAfter.withContext {p : Parse α} (msg : String) (h : SoundAfter unread R p) :
    SoundAfter unread R (Parse.withContext msg p) :=
  fun a l hp => h a l (Parse.withContext_eq_ok.mp hp)

theorem SoundAfter.mono {R' : List Access} {p : Parse α} (h : SoundAfter unread R p)
    (hR : R ⊆ R') : SoundAfter unread R' p :=
  fun a l hp => (h a l hp).mono hR

theorem SoundAfter.read_bind {y : Yaml} {k : String} {f : Yaml → Parse β}
    (hf : ∀ a, SoundAfter unread (R ++ [.read y k]) (f a)) :
    SoundAfter unread R (Parse.read y k >>= f) :=
  SoundAfter.bind_fixed (fun _ _ h => ⟨(Parse.read_eq_ok.mp h).2, sound_read y k⟩) hf

theorem SoundAfter.lift_bind {r : Outcome α} {f : α → Parse β}
    (hf : ∀ a, SoundAfter unread R (f a)) : SoundAfter unread R (Parse.lift r >>= f) :=
  SoundAfter.bind_fixed (fun _ _ h => ⟨(Parse.lift_eq_ok.mp h).2, by simp [Sound]⟩)
    (by simpa using hf)

end Rules

end FuzztructionNet.Configuration
