import Mathlib.Tactic.Common
import Mathlib.Logic.Relation

/-!
# Methods: state, exceptions, and their weakest preconditions

A method of an object with state `σ` may raise an exception of type `ε` in the middle of its body,
and what it wrote before the raise stays written. `Method` is the corresponding monad, `Method.call`
runs one, and `Method.wp` is its weakest precondition with one postcondition for a return and one for
a raise. The `wp` lemmas are the proof rules; every one of them is an equivalence, so a method body
unfolds to the conditions its branches have to meet.
-/

namespace AgentBox

variable {ε α : Type} {c : Prop} {e : ε} {a : α}

/-- A computation over a mutable state that may raise and keeps its writes when it does. -/
abbrev Method (ε σ : Type) := ExceptT ε (StateM σ)

/-- A sequence of fallible computations succeeds exactly when each of them does. -/
theorem bind_eq_ok_iff {β : Type} {x : Except ε α} {f : α → Except ε β} {b : β} :
    (x >>= f) = .ok b ↔ ∃ a, x = .ok a ∧ f a = .ok b := by
  cases x with
  | error | ok => simp [bind, Except.bind]

/-- A check that throws is passed exactly when its condition fails. -/
theorem throw_or_eq_ok_iff [Decidable c] {k : PUnit → Except ε α} {m : Except ε α} :
    (if c then throw e >>= k else m) = .ok a ↔ ¬c ∧ m = .ok a := by
  split
  · next hc => exact ⟨nofun, fun h => absurd hc h.1⟩
  · next hc => exact ⟨fun h => ⟨hc, h⟩, fun h => h.2⟩

theorem error_or_eq_ok_iff [Decidable c] {m : Except ε α} :
    (if c then .error e else m) = .ok a ↔ ¬c ∧ m = .ok a := by
  split
  · next hc => exact ⟨nofun, fun h => absurd hc h.1⟩
  · next hc => exact ⟨fun h => ⟨hc, h⟩, fun h => h.2⟩

theorem mapError_eq_ok {δ : Type} {x : Except ε α} {f : ε → δ} {a : α} (h : x.mapError f = .ok a) :
    x = .ok a := by
  cases x with
  | error e => cases h
  | ok b => exact congrArg Except.ok (Except.ok.inj h)

theorem throw_unless_eq_ok_iff [Decidable c] {u : Unit} :
    (if c then throw e else pure () : Except ε Unit) = .ok u ↔ ¬c := by
  split
  · next hc => exact ⟨nofun, fun h => absurd hc h⟩
  · next hc => exact ⟨fun _ => hc, fun _ => rfl⟩

/-- The value, or an exception where there is none. -/
def orRaise {ε α : Type} (x : Option α) (e : ε) : Except ε α :=
  match x with
  | some a => .ok a
  | none => .error e

theorem orRaise_eq_ok_iff {x : Option α} : orRaise x e = .ok a ↔ x = some a := by
  cases x <;> simp [orRaise]

theorem toOption_eq_some_iff {x : Except ε α} : x.toOption = some a ↔ x = .ok a := by
  cases x <;> simp [Except.toOption]

theorem pure_eq_ok_iff {b : α} : (pure a : Except ε α) = .ok b ↔ a = b :=
  ⟨Except.ok.inj, fun h => h ▸ rfl⟩

/-- Whatever the computation raises satisfies `P`. -/
def ErrorsMeet {ε α : Type} (P : ε → Prop) (x : Except ε α) : Prop := ∀ e, x = .error e → P e

section
variable {ε α β : Type} {P : ε → Prop}

@[simp] theorem errorsMeet_pure (a : α) : ErrorsMeet P (pure a : Except ε α) := by
  intro e h
  contradiction

@[simp] theorem errorsMeet_throw (e : ε) : ErrorsMeet P (throw e : Except ε α) ↔ P e :=
  ⟨fun h => h e rfl, fun h _ he => Except.error.inj he ▸ h⟩

@[simp] theorem errorsMeet_bind (x : Except ε α) (f : α → Except ε β) :
    ErrorsMeet P (x >>= f) ↔ ErrorsMeet P x ∧ ∀ a, x = .ok a → ErrorsMeet P (f a) := by
  cases x with
  | error | ok => simp [ErrorsMeet, bind, Except.bind]

@[simp] theorem errorsMeet_map (x : Except ε α) (f : α → β) : ErrorsMeet P (f <$> x) ↔ ErrorsMeet P x := by
  cases x <;> simp [ErrorsMeet]

@[simp] theorem errorsMeet_ite {c : Prop} [Decidable c] (x y : Except ε α) :
    ErrorsMeet P (if c then x else y) ↔ (c → ErrorsMeet P x) ∧ (¬c → ErrorsMeet P y) := by
  by_cases h : c <;> simp [h]

@[simp] theorem errorsMeet_orRaise (x : Option α) (e : ε) :
    ErrorsMeet P (orRaise x e) ↔ (x = none → P e) := by
  cases x <;> simp [orRaise, ErrorsMeet]

end

namespace Method

variable {ε σ α β : Type} {m : Method ε σ α} {c : Prop}

/-- Call a method: its outcome and the state it leaves behind. -/
def call (m : Method ε σ α) (s : σ) : Except ε α × σ := m.run.run s

/-- Raise `e` when `c` holds. -/
def raiseIf (c : Prop) [Decidable c] (e : ε) : Method ε σ Unit := if c then throw e else pure ()

/-- `if c: m` as a statement. -/
def onlyIf (c : Prop) [Decidable c] (m : Method ε σ Unit) : Method ε σ Unit := if c then m else pure ()

/-- A computation that reads no state, raising where it fails. -/
def liftExcept (x : Except ε α) : Method ε σ α :=
  match x with
  | .ok a => pure a
  | .error e => throw e

/-- A method of one of the objects in a larger state. -/
def zoom {τ : Type} (part : σ → τ) (update : σ → τ → σ) (m : Method ε τ α) : Method ε σ α :=
  ExceptT.mk (fun s => ((m.call (part s)).1, update s (m.call (part s)).2))

/-- Calling `m` in `s` returns with `Q` or raises with `E`. -/
def wp (m : Method ε σ α) (s : σ) (Q : α → σ → Prop) (E : ε → σ → Prop) : Prop :=
  match m.call s with
  | (.ok a, t) => Q a t
  | (.error e, t) => E e t

variable {s : σ} {Q : α → σ → Prop} {E : ε → σ → Prop}

@[simp] theorem wp_pure (a : α) : (pure a : Method ε σ α).wp s Q E ↔ Q a s := Iff.rfl

@[simp] theorem wp_throw (e : ε) : (throw e : Method ε σ α).wp s Q E ↔ E e s := Iff.rfl

@[simp] theorem wp_get {Q : σ → σ → Prop} : (get : Method ε σ σ).wp s Q E ↔ Q s s := Iff.rfl

@[simp] theorem wp_set {Q : PUnit → σ → Prop} (t : σ) :
    (MonadStateOf.set t : Method ε σ PUnit).wp s Q E ↔ Q ⟨⟩ t := Iff.rfl

@[simp] theorem wp_modify {Q : PUnit → σ → Prop} (f : σ → σ) :
    (modify f : Method ε σ PUnit).wp s Q E ↔ Q ⟨⟩ (f s) := Iff.rfl

theorem call_bind (m : Method ε σ α) (f : α → Method ε σ β) (s : σ) : (m >>= f).call s = match m.call s with
      | (.ok a, t) => (f a).call t
      | (.error e, t) => (.error e, t) := by
  simp only [call, ExceptT.run_bind, StateT.run_bind]
  rcases m.run.run s with ⟨_ | _, _⟩ <;> rfl

@[simp] theorem wp_bind (m : Method ε σ α) (f : α → Method ε σ β) {Q : β → σ → Prop} :
    (m >>= f).wp s Q E ↔ m.wp s (fun a t => (f a).wp t Q E) E := by
  simp only [wp, call_bind]
  rcases m.call s with ⟨_ | _, _⟩ <;> rfl

@[simp] theorem wp_map (m : Method ε σ α) (f : α → β) {Q : β → σ → Prop} :
    (f <$> m).wp s Q E ↔ m.wp s (fun a t => Q (f a) t) E := by
  rw [map_eq_pure_bind, wp_bind]
  rfl

@[simp] theorem wp_discard (m : Method ε σ α) {Q : PUnit → σ → Prop} :
    (discard m).wp s Q E ↔ m.wp s (fun _ t => Q ⟨⟩ t) E :=
  wp_map m fun _ => PUnit.unit

@[simp] theorem wp_raiseIf [Decidable c] (e : ε) {Q : Unit → σ → Prop} :
    (raiseIf c e : Method ε σ Unit).wp s Q E ↔ (c → E e s) ∧ (¬ c → Q () s) := by
  unfold raiseIf
  by_cases h : c <;> simp [h]

@[simp] theorem wp_ite [Decidable c] (m n : Method ε σ α) :
    (if c then m else n).wp s Q E ↔ (c → m.wp s Q E) ∧ (¬ c → n.wp s Q E) := by
  by_cases h : c <;> simp [h]

@[simp] theorem wp_onlyIf [Decidable c] (m : Method ε σ Unit) {Q : Unit → σ → Prop} :
    (onlyIf c m).wp s Q E ↔ (c → m.wp s Q E) ∧ (¬ c → Q () s) := by
  unfold onlyIf
  rw [wp_ite, wp_pure]

@[simp] theorem wp_liftExcept (x : Except ε α) : (liftExcept x : Method ε σ α).wp s Q E ↔
      (∀ a, x = .ok a → Q a s) ∧ (∀ e, x = .error e → E e s) := by
  cases x <;> simp [liftExcept]

@[simp] theorem wp_zoom {τ : Type} (part : σ → τ) (update : σ → τ → σ) (m : Method ε τ α) :
    (zoom part update m).wp s Q E ↔
      m.wp (part s) (fun a t => Q a (update s t)) (fun e t => E e (update s t)) := by
  have hcall : (zoom part update m).call s = ((m.call (part s)).1, update s (m.call (part s)).2) := rfl
  unfold wp
  rw [hcall]
  rcases m.call (part s) with ⟨_ | _, _⟩ <;> rfl

/-- The handler of `try m except: h` sees the state that `m` left behind. -/
@[simp] theorem wp_tryCatch (m : Method ε σ α) (h : ε → Method ε σ α) :
    (tryCatch m h).wp s Q E ↔ m.wp s Q (fun e t => (h e).wp t Q E) := by
  change (match (tryCatch m h).call s with | (.ok a, t) => Q a t | (.error e, t) => E e t) ↔ _
  have hcall : (tryCatch m h).call s = match m.call s with
      | (.ok a, t) => (.ok a, t)
      | (.error e, t) => (h e).call t := by
    simp only [call, tryCatch, tryCatchThe, MonadExceptOf.tryCatch, ExceptT.tryCatch, ExceptT.run_mk,
      StateT.run_bind]
    rw [show StateT.run m s = m.run.run s from rfl]
    rcases m.run.run s with ⟨_ | _, _⟩ <;> rfl
  rw [hcall]
  unfold wp
  rcases m.call s with ⟨_ | _, _⟩ <;> rfl

/-- Postconditions that always hold. -/
theorem wp_of_forall (hQ : ∀ a t, Q a t) (hE : ∀ e t, E e t) : m.wp s Q E := by
  unfold wp
  rcases m.call s with ⟨e | a, t⟩
  · exact hE e t
  · exact hQ a t

theorem wp_mono {Q' : α → σ → Prop} {E' : ε → σ → Prop} (h : m.wp s Q E)
    (hQ : ∀ a t, Q a t → Q' a t) (hE : ∀ e t, E e t → E' e t) : m.wp s Q' E' := by
  unfold wp at h ⊢
  rcases hm : m.call s with ⟨e | a, t⟩ <;> rw [hm] at h
  · exact hE e t h
  · exact hQ a t h

/-- The same exceptions, and no more than that is returned. -/
theorem wp_imp {Q' : α → σ → Prop} (h : m.wp s Q E) (hQ : ∀ a t, Q a t → Q' a t) : m.wp s Q' E :=
  wp_mono h hQ fun _ _ he => he

section
variable {f : α → Method ε σ β} {Q' : β → σ → Prop} {E' : ε → σ → Prop}

/-- One method after another, each by what is known of it. -/
theorem wp_seq_mono (h : m.wp s Q E) (hQ : ∀ a t, Q a t → (f a).wp t Q' E')
    (hE : ∀ e t, E e t → E' e t) : (m >>= f).wp s Q' E' :=
  (wp_bind m f).mpr (wp_mono h hQ hE)

theorem wp_seq (h : m.wp s Q E') (hQ : ∀ a t, Q a t → (f a).wp t Q' E') : (m >>= f).wp s Q' E' :=
  (wp_bind m f).mpr (wp_imp h hQ)

theorem wp_lift {x : Except ε α} (hf : ∀ a, x = .ok a → (f a).wp s Q' E')
    (he : ∀ e, x = .error e → E' e s) : (liftExcept x >>= f).wp s Q' E' :=
  (wp_bind _ f).mpr ((wp_liftExcept x).mpr ⟨hf, he⟩)

/-- A check that raises ahead of the rest of a method. -/
theorem wp_unless [Decidable c] {e : ε} {f : Unit → Method ε σ β} (he : c → E' e s)
    (hf : ¬ c → (f ()).wp s Q' E') : (raiseIf c e >>= f).wp s Q' E' :=
  (wp_bind _ f).mpr ((wp_raiseIf e).mpr ⟨he, hf⟩)

end

/-- Two things known of the same call. -/
theorem wp_and {Q' : α → σ → Prop} {E' : ε → σ → Prop} (h : m.wp s Q E) (h' : m.wp s Q' E') :
    m.wp s (fun a t => Q a t ∧ Q' a t) (fun e t => E e t ∧ E' e t) := by
  unfold wp at h h' ⊢
  rcases hm : m.call s with ⟨_ | _, _⟩ <;> rw [hm] at h h' <;> exact ⟨h, h'⟩

/-- A method that returns only in states related to the one it was called in. -/
def Keeps (R : σ → σ → Prop) (m : Method ε σ α) : Prop :=
  ∀ s, m.wp s (fun _ t => R s t) (fun _ _ => True)

section
variable {R : σ → σ → Prop} {f : α → Method ε σ β} {Q' : β → σ → Prop}

theorem Keeps.wp (h : m.Keeps R) (hQ : ∀ a t, R s t → Q a t) : m.wp s Q fun _ _ => True :=
  wp_imp (h s) hQ

theorem Keeps.seq (h : m.Keeps R) (hf : ∀ a t, R s t → (f a).wp t Q' fun _ _ => True) :
    (m >>= f).wp s Q' fun _ _ => True :=
  wp_seq (h s) hf

/-- After a method that changes nothing. -/
theorem Keeps.pass (h : m.Keeps Eq) (hf : ∀ a, (f a).wp s Q' fun _ _ => True) :
    (m >>= f).wp s Q' fun _ _ => True :=
  h.seq fun a _ ht => ht ▸ hf a

theorem Keeps.discard (h : m.Keeps R) : (Functor.discard m).Keeps R :=
  fun s => (wp_discard m).mpr (h s)

end

/-- `P` holds of the state however the call ends. -/
abbrev Ends (m : Method ε σ α) (s : σ) (P : σ → Prop) : Prop := m.wp s (fun _ => P) fun _ => P

theorem state_of_wp {P : σ → Prop} (h : m.wp s (fun _ => P) fun _ => P) : P (m.call s).2 := by
  unfold wp at h
  rcases hm : m.call s with ⟨_ | _, _⟩ <;> rw [hm] at h <;> exact h

/-- A postcondition over the outcome and the state holds of a call. -/
theorem call_of_wp {P : Except ε α → σ → Prop}
    (h : m.wp s (fun a t => P (.ok a) t) (fun e t => P (.error e) t)) : P (m.call s).1 (m.call s).2 := by
  unfold wp at h
  rcases hm : m.call s with ⟨_ | _, _⟩ <;> rw [hm] at h <;> exact h

theorem ok_of_wp (h : m.wp s Q E) {a : α} (ha : (m.call s).1 = .ok a) : Q a (m.call s).2 := by
  unfold wp at h
  rcases hm : m.call s with ⟨e | b, t⟩ <;> rw [hm] at h ha
  · cases ha
  · cases ha; exact h

theorem error_of_wp (h : m.wp s Q E) {e : ε} (he : (m.call s).1 = .error e) : E e (m.call s).2 := by
  unfold wp at h
  rcases hm : m.call s with ⟨f | b, t⟩ <;> rw [hm] at h he
  · cases he; exact h
  · cases he

/-- A call that can only raise `e` in state `t` does so. -/
theorem call_eq_error {e : ε} {t : σ}
    (h : m.wp s (fun _ _ => False) (fun e' t' => e' = e ∧ t' = t)) : m.call s = (.error e, t) := by
  unfold wp at h
  rcases hm : m.call s with ⟨e' | a, t'⟩ <;> rw [hm] at h
  · rw [h.1, h.2]
  · exact h.elim

theorem wp_iff_call : m.wp s Q E ↔ (∀ a t, m.call s = (.ok a, t) → Q a t) ∧
      (∀ e t, m.call s = (.error e, t) → E e t) := by
  unfold wp
  rcases hm : m.call s with ⟨e | a, t⟩ <;> simp

/-- A loop that folds an accumulator over a list keeps a loop invariant. The invariant is indexed by
the entries still to come, since a body may rely on what its own turn has not changed yet. -/
theorem wp_foldlM {γ : Type} {body : β → γ → Method ε σ β} (I : List γ → β → σ → Prop)
    (hstep : ∀ x xs b t, I (x :: xs) b t → (body b x).wp t (fun b' t' => I xs b' t') E)
    (xs : List γ) (b : β) (h : I xs b s) : (xs.foldlM body b).wp s (fun b' t => I [] b' t) E := by
  induction xs generalizing b s with
  | nil => exact h
  | cons x xs ih =>
    rw [List.foldlM_cons, wp_bind]
    exact wp_mono (hstep x xs b s h) (fun b' t hI => ih b' hI) (fun _ _ he => he)

/-! ## What holds however a method ends -/

/-- However the method ends, the state it leaves is related to the one it was called in. -/
def Always (R : σ → σ → Prop) (m : Method ε σ α) : Prop :=
  ∀ s, m.wp s (fun _ t => R s t) (fun _ t => R s t)

section
variable {R : σ → σ → Prop}

theorem Always.mono {m : Method ε σ α} {R' : σ → σ → Prop} (h : m.Always R)
    (hle : ∀ s t, R s t → R' s t) : m.Always R' :=
  fun s => wp_mono (h s) (fun _ t => hle s t) (fun _ t => hle s t)

theorem Always.state {m : Method ε σ α} (h : m.Always R) (s : σ) : R s (m.call s).2 :=
  state_of_wp (h s)

theorem Always.ends {m : Method ε σ α} {P : σ → Prop} (h : m.Always R) (hP : ∀ t, R s t → P t) : m.Ends s P :=
  wp_mono (h s) (fun _ => hP) fun _ => hP

theorem always_modify {f : σ → σ} (h : ∀ s, R s (f s)) : (modify f : Method ε σ PUnit).Always R := h

/-- Reading the state changes nothing. -/
theorem always_read {f : σ → Method ε σ α} (hf : ∀ t, (f t).Always R) : (get >>= f).Always R :=
  fun s => (wp_bind _ f).mpr (hf s s)

theorem always_return {m : Method ε σ α} {g : α → β} (hm : m.Always R) :
    (m >>= fun a => pure (g a)).Always R := fun s => (wp_bind _ _).mpr (hm s)

section
variable [Std.Refl R]

theorem always_pure (a : α) : (pure a : Method ε σ α).Always R := fun s => Std.Refl.refl s

theorem always_throw (e : ε) : (throw e : Method ε σ α).Always R := fun s => Std.Refl.refl s

theorem always_get : (get : Method ε σ σ).Always R := fun s => Std.Refl.refl s

theorem always_raiseIf (c : Prop) [Decidable c] (e : ε) : (raiseIf c e : Method ε σ Unit).Always R := by
  intro s
  rw [wp_raiseIf]
  exact ⟨fun _ => Std.Refl.refl s, fun _ => Std.Refl.refl s⟩

theorem always_onlyIf {c : Prop} [Decidable c] {m : Method ε σ Unit} (h : c → m.Always R) :
    (onlyIf c m).Always R := by
  intro s
  rw [wp_onlyIf]
  exact ⟨fun hc => h hc s, fun _ => Std.Refl.refl s⟩

theorem always_liftExcept (x : Except ε α) : (liftExcept x : Method ε σ α).Always R := by
  intro s
  rw [wp_liftExcept]
  exact ⟨fun _ _ => Std.Refl.refl s, fun _ _ => Std.Refl.refl s⟩

/-- A check ahead of the rest changes nothing. -/
theorem always_unless {c : Prop} [Decidable c] {e : ε} {f : Unit → Method ε σ α}
    (hf : ¬ c → (f ()).Always R) : (raiseIf c e >>= f).Always R :=
  fun s => wp_unless (fun _ => Std.Refl.refl s) fun hc => hf hc s

end

section
variable [IsTrans σ R]

theorem always_bind {m : Method ε σ α} {f : α → Method ε σ β} (hm : m.Always R)
    (hf : ∀ a, (f a).Always R) : (m >>= f).Always R := by
  intro s
  refine wp_seq (hm s) fun a t hst => ?_
  exact wp_mono (hf a t) (fun _ _ htu => IsTrans.trans _ _ _ hst htu) (fun _ _ htu => IsTrans.trans _ _ _ hst htu)

theorem always_tryCatch {m : Method ε σ α} {h : ε → Method ε σ α} (hm : m.Always R)
    (hh : ∀ e, (h e).Always R) : (tryCatch m h).Always R := by
  intro s
  rw [wp_tryCatch]
  refine wp_mono (hm s) (fun _ _ hst => hst) (fun e t hst => ?_)
  exact wp_mono (hh e t) (fun _ _ htu => IsTrans.trans _ _ _ hst htu) (fun _ _ htu => IsTrans.trans _ _ _ hst htu)

end

theorem always_ite {c : Prop} [Decidable c] {m n : Method ε σ α} (hm : c → m.Always R)
    (hn : ¬c → n.Always R) : (if c then m else n).Always R := by
  split
  · next hc => exact hm hc
  · next hc => exact hn hc

end

/-! ## What a method can raise -/

/-- Whatever state it is called in, the method raises only what satisfies `P`. -/
def Raises (P : ε → Prop) (m : Method ε σ α) : Prop :=
  ∀ s, m.wp s (fun _ _ => True) (fun e _ => P e)

section
variable {P : ε → Prop} {m : Method ε σ α} {c : Prop}

theorem raises_pure (a : α) : (pure a : Method ε σ α).Raises P := fun _ => trivial

theorem raises_throw {e : ε} (h : P e) : (throw e : Method ε σ α).Raises P := fun _ => h

theorem raises_get : (get : Method ε σ σ).Raises P := fun _ => trivial

theorem raises_modify (f : σ → σ) : (modify f : Method ε σ PUnit).Raises P := fun _ => trivial

theorem raises_raiseIf [Decidable c] {e : ε} (h : P e) : (raiseIf c e : Method ε σ Unit).Raises P := by
  intro s
  rw [wp_raiseIf]
  exact ⟨fun _ => h, fun _ => trivial⟩

theorem raises_onlyIf [Decidable c] {m : Method ε σ Unit} (h : m.Raises P) : (onlyIf c m).Raises P := by
  intro s
  rw [wp_onlyIf]
  exact ⟨fun _ => h s, fun _ => trivial⟩

theorem raises_liftExcept {x : Except ε α} (h : ErrorsMeet P x) : (liftExcept x : Method ε σ α).Raises P := by
  intro s
  rw [wp_liftExcept]
  exact ⟨fun _ _ => trivial, h⟩

theorem raises_bind {f : α → Method ε σ β} (hm : m.Raises P) (hf : ∀ a, (f a).Raises P) :
    (m >>= f).Raises P := by
  intro s
  rw [wp_bind]
  exact wp_mono (hm s) (fun a t _ => hf a t) fun _ _ he => he

theorem raises_tryCatch {P' : ε → Prop} {h : ε → Method ε σ α} (hm : m.Raises P')
    (hh : ∀ e, P' e → (h e).Raises P) : (tryCatch m h).Raises P := by
  intro s
  rw [wp_tryCatch]
  exact wp_mono (hm s) (fun _ _ _ => trivial) fun e t he => hh e he t

theorem raises_ite [Decidable c] {n : Method ε σ α} (hm : c → m.Raises P) (hn : ¬ c → n.Raises P) :
    (if c then m else n).Raises P := by
  intro s
  rw [wp_ite]
  exact ⟨fun h => hm h s, fun h => hn h s⟩

theorem raises_of_true : m.Raises fun _ => True :=
  fun _ => wp_of_forall (fun _ _ => trivial) fun _ _ => trivial

end

end Method

end AgentBox
