import AgentBox.Lifecycle.Ticks

/-!
# Generations are used once

A generation is burnt in the durable directory before the executor hears of it. So over any number of
Runtime instances that share the directory, wherever one of them is cut off, the generations of a
workspace that reach the executor increase (`starts_increase`).

The argument is about logs. `Burnt` says that each start stands right after the record that reserves its
generation and that no record lowers one; every method keeps it, and a prefix of a log has it too.
-/

namespace AgentBox.Lifecycle

open List Method

variable {a : Attestation} {action : Action} {w : String} {s t : World} {i : Identity}

/-! ## The directory that a log leaves behind -/

variable (d : Attestations)

/-- The directory after one more effect. -/
def Attestations.after : Effect → Attestations
  | .attested a => d.put a
  | _ => d

/-- The directory after the effects of a log. -/
def replay (log : List Effect) : Attestations := log.foldl Attestations.after d

theorem replay_append (l m : List Effect) : replay d (l ++ m) = replay (replay d l) m := foldl_append

/-- A record of the workspace, if there is one, reserves a smaller generation. -/
def Below (w : String) (g : ℕ) : Prop :=
  ∀ a, d.get? w = some a → a.minGeneration < g

/-- What an effect may be after the effects before it. -/
def Follows (before : List Effect) : Effect → Prop
  | .startCalled i => ∃ earlier a, before = earlier ++ [.attested a] ∧ a.workspaceId = i.workspaceId ∧
      a.minGeneration = i.generation ∧ Below (replay d earlier) i.workspaceId i.generation
  | .attested a => ∀ b, (replay d before).get? a.workspaceId = some b →
      b.minGeneration ≤ a.minGeneration
  | _ => True

/-- Every start of the log stands after the record that reserves its generation. -/
def Burnt (log : List Effect) : Prop := EachAfter (Follows d) log

/-- The registry's directory is the one its log describes. -/
structure Burns (d : Attestations) (s : World) : Prop where
  directory : s.attestations = replay d s.log
  burnt : Burnt d s.log

variable {cfg : Config} {d : Attestations}

theorem replay_concat (l : List Effect) (e : Effect) :
    replay d (l ++ [e]) = (replay d l).after e := replay_append d l [e]

/-! ## One request -/

/-- `Burns` is about the log and the directory only. -/
theorem Burns.of_eq (h : Burns d s) (hlog : t.log = s.log)
    (hfiles : t.attestations = s.attestations) : Burns d t := by
  constructor
  · rw [hfiles, hlog]
    exact h.directory
  · rw [hlog]
    exact h.burnt

variable {e : Effect}

theorem Burns.note (h : Burns d s) (hafter : s.attestations.after e = s.attestations)
    (he : Follows d s.log e) : Burns d { s with log := s.log ++ [e] } := by
  refine ⟨?_, eachAfter_concat h.burnt he⟩
  change s.attestations = replay d (s.log ++ [e])
  rw [replay_concat, ← h.directory, hafter]

theorem Burns.put (h : Burns d s)
    (ha : ∀ b, s.attestations.get? a.workspaceId = some b → b.minGeneration ≤ a.minGeneration) :
    Burns d { s with attestations := s.attestations.put a, log := s.log ++ [.attested a] } := by
  refine ⟨?_, eachAfter_concat h.burnt ?_⟩
  · change s.attestations.put a = replay d (s.log ++ [.attested a])
    rw [replay_concat, ← h.directory]
    rfl
  · intro b hb
    rw [← h.directory] at hb
    exact ha b hb

theorem Mark.burns (h : Mark s t) (hs : Burns d s) : Burns d t := by
  cases h with
  | isolate | register => exact hs.of_eq rfl rfl
  | @note e he =>
    cases e with
    | startCalled | attested | recorded => cases he
    | stopCalled | stopReturned | observeCalled => exact hs.note rfl trivial
  | record r =>
    have hrecords : Burns d { s with records := s.records.put r } := hs.of_eq rfl rfl
    exact hrecords.note rfl trivial

theorem Tick.burns (h : Tick cfg s t) (hs : Burns d s) : Burns d t := by
  cases h with
  | mark hmark => exact hmark.burns hs
  | hydrate w =>
    unfold World.hydrate
    split
    · exact hs.of_eq rfl rfl
    · exact hs
  | screen i hscreen =>
    obtain ⟨_, _, -, -, rfl⟩ := screen_eq hscreen
    exact hs.of_eq rfl rfl
  | clear => exact hs.of_eq rfl rfl
  | @epoch a ha e =>
    refine hs.put fun b hb => ?_
    change s.attestations.get? a.workspaceId = some b at hb
    rw [ha] at hb
    cases hb
    exact le_rfl

theorem Ticks.burns (h : Ticks cfg s t) (hs : Burns d s) : Burns d t :=
  h.keeps Tick.burns hs

/-- A method that keeps `Burns`. -/
def KeepsBurns (d : Attestations) (s t : World) : Prop := Burns d s → Burns d t

instance : Std.Refl (KeepsBurns d) := ⟨fun _ h => h⟩

instance : IsTrans World (KeepsBurns d) := ⟨fun _ _ _ h k hs => k (h hs)⟩

theorem burns_of_marks {α : Type} {m : Op α} (h : m.Always Marks) : m.Always (KeepsBurns d) :=
  h.mono fun _ _ hmarks hs => hmarks.keeps Mark.burns hs

theorem always_remember (i : Identity) (o : Observation) : (remember i o).Always (KeepsBurns d) :=
  always_modify fun _ h => h.of_eq rfl rfl

theorem always_release (w : String) : (release w).Always (KeepsBurns d) :=
  always_modify fun _ h => h.of_eq rfl rfl

theorem always_raiseFloor (w : String) (g : ℕ) : (raiseFloor w g).Always (KeepsBurns d) :=
  always_modify fun _ h => h.of_eq rfl rfl

theorem always_rollback (i : Identity) (cleanup : Cleanup) :
    (rollback cfg i cleanup).Always (KeepsBurns d) := by
  refine always_bind (always_raiseFloor _ _) fun _ => always_bind (always_remember _ _) fun _ =>
    always_bind (always_modify fun _ h => h.of_eq rfl rfl) fun _ => ?_
  have hfence : (fenceIdentity cfg i).Always (KeepsBurns d) := burns_of_marks (always_fenceIdentity i)
  refine always_bind ?_ fun _ => ?_
  · refine always_tryCatch (burns_of_marks (always_cleanupFailedStart i cleanup)) fun e => ?_
    exact always_bind hfence fun _ => always_throw _
  · refine always_bind hfence fun _ => always_bind (always_remember _ _) fun _ => ?_
    exact always_onlyIf fun _ => always_release _

/-- Once the generation is reserved, the executor may hear of it. -/
theorem callExecutor_wp (script : Script) (hs : Burns d s) (hcall : Follows d s.log (callOf action i)) :
    (callExecutor cfg action i script).Ends s (Burns d) := by
  have hnote : Burns d { s with log := s.log ++ [callOf action i] } := by
    refine hs.note ?_ hcall
    cases action <;> rfl
  have hfailed : ∀ e, (callFailed cfg action i script e).Always (KeepsBurns d) := by
    intro e
    by_cases hstart : action = .start
    · subst hstart
      exact always_bind (always_rollback i script.cleanup) fun _ => always_throw _
    · exact burns_of_marks (always_callFailed hstart i script e)
  have hrest : (tryCatch (takeResult cfg action i script)
      (callFailed cfg action i script)).Always (KeepsBurns d) :=
    always_tryCatch (burns_of_marks (always_takeResult action i script)) hfailed
  rw [Ends, callExecutor, wp_bind, note, wp_modify]
  exact wp_mono (hrest _) (fun _ t ht => ht hnote) fun _ t ht => ht hnote

theorem follows_callOf (h : action ≠ .start) (log : List Effect) (i : Identity) :
    Follows d log (callOf action i) := by
  cases action with
  | start => exact absurd rfl h
  | stop | status | reconcile => trivial

theorem advance_eq_some {s : Attestations} {epoch : ℕ} (h : advance s i epoch = some a) :
    a = i.attested epoch ∧ Below s i.workspaceId i.generation := by
  unfold advance at h
  split at h
  · next current hcurrent =>
    split at h
    · cases h
    · next hlow =>
      split at h
      · cases h
        refine ⟨rfl, fun b hb => ?_⟩
        rw [hcurrent] at hb
        cases hb
        omega
      · cases h
  · next hnone =>
    split at h
    · cases h
      refine ⟨rfl, fun b hb => ?_⟩
      rw [hnone] at hb
      cases hb
    · cases h

/-- A generation is reserved before it is used. -/
theorem burn_wp (i : Identity) (hs : Burns d s) :
    (burn cfg i).wp s (fun _ t => Burns d t ∧ Follows d t.log (.startCalled i)) (fun _ => Burns d) := by
  rw [burn, wp_bind, wp_get]
  split
  · next a ha =>
    obtain ⟨rfl, hbelow⟩ := advance_eq_some ha
    refine ⟨hs.put fun b hb => (hbelow b hb).le, s.log, _, rfl, rfl, rfl, ?_⟩
    rw [← hs.directory]
    exact hbelow
  · exact hs.of_eq rfl rfl

theorem perform_burns (hcfg : cfg.hasAttestations = true) (hs : Burns d s) (request : Request)
    (retry : Bool) (script : Script) : (perform cfg request retry script).Ends s (Burns d) := by
  have hburn : (onlyIf (request.action = .start ∧ cfg.hasAttestations) (burn cfg request.identity)).wp s
      (fun _ t => Burns d t ∧ Follows d t.log (callOf request.action request.identity))
      (fun _ => Burns d) := by
    rw [wp_onlyIf]
    refine ⟨fun h => ?_, fun h => ⟨hs, follows_callOf (fun hstart => h ⟨hstart, hcfg⟩) _ _⟩⟩
    rw [h.1]
    exact burn_wp request.identity hs
  rw [perform]
  refine wp_seq hburn fun _ t ht => ?_
  refine wp_seq (callExecutor_wp script ht.1 ht.2) fun o u hu => ?_
  have hrest : (do
      collectEvidence cfg request.action request.identity script
      onlyIf (request.action = .start) (readBack cfg request.identity script)
      remember request.identity o
      onlyIf (retry ∧ o.state = .stopped) (release request.identity.workspaceId)
      onlyIf (request.action = .start) (raiseFloor request.identity.workspaceId request.identity.generation)
      return ⟨request, answerOf request.action o, some o⟩ : Op Response).Always (KeepsBurns d) := by
    refine always_bind (burns_of_marks (always_collectEvidence _ _ script)) fun _ => ?_
    refine always_bind (always_onlyIf fun _ => burns_of_marks (always_readBack _ script)) fun _ => ?_
    refine always_bind (always_remember _ _) fun _ => ?_
    refine always_bind (always_onlyIf fun _ => always_release _) fun _ => ?_
    exact always_return (always_onlyIf fun _ => always_raiseFloor _ _)
  exact wp_mono (hrest u) (fun _ v hv => hv hu) fun _ v hv => hv hu

theorem Burns.step (hcfg : cfg.hasAttestations = true) (hs : Burns d s) (event : Event) :
    Burns d (s.step cfg event) := by
  refine step_keeps Tick.burns (fun _ _ h => h.of_eq rfl rfl) (fun _ _ h => h.of_eq rfl rfl) hs ?_
  intro request script t u _ hadmitted
  exact perform_burns hcfg (hadmitted.ticks.burns hs) request _ script

/-! ## Histories -/

/-- A Runtime that works on the directory until it is cut off. -/
structure Instance where
  config : Config
  attests : config.hasAttestations = true
  outside : Outside
  records : Records
  events : List Event
  /-- the number of effects that happen before the crash -/
  cut : ℕ

namespace Instance

/-- The registry after all events of the instance. -/
def final (x : Instance) (d : Attestations) : World :=
  x.events.foldl (World.step x.config) (.initial x.outside d x.records)

/-- The effects of the instance. -/
def log (x : Instance) (d : Attestations) : List Effect := (x.final d).log.take x.cut

end Instance

/-- The effects of successive instances on one directory. -/
def history (d : Attestations) : List Instance → List Effect
  | [] => []
  | x :: rest => x.log d ++ history (replay d (x.log d)) rest

theorem Instance.burns (x : Instance) (d : Attestations) : Burns d (x.final d) := by
  suffices ∀ (events : List Event) (s : World), Burns d s →
      Burns d (events.foldl (World.step x.config) s) from
    this x.events _ ⟨rfl, eachAfter_nil⟩
  intro events
  induction events with
  | nil => exact fun _ hs => hs
  | cons event rest ih => exact fun s hs => ih _ (hs.step x.attests event)

theorem Burnt.take {log : List Effect} (h : Burnt d log) (k : ℕ) : Burnt d (log.take k) := by
  intro n e he
  rw [List.getElem?_take] at he
  split at he
  · next hn =>
    rw [take_take, min_eq_left hn.le]
    exact h n e he
  · cases he

variable {before : List Effect} {l : List Effect}

/-- A log may go on from the directory that it leaves behind. -/
theorem Follows.append (h : Follows (replay d l) before e) : Follows d (l ++ before) e := by
  cases e with
  | startCalled i =>
    obtain ⟨earlier, a, rfl, hw, hg, hbelow⟩ := h
    refine ⟨l ++ earlier, a, (append_assoc _ _ _).symm, hw, hg, ?_⟩
    rw [replay_append]
    exact hbelow
  | attested a =>
    intro b hb
    rw [replay_append] at hb
    exact h b hb
  | stopCalled | stopReturned | observeCalled | recorded => trivial

variable {m : List Effect}

theorem Burnt.append (hl : Burnt d l) (hm : Burnt (replay d l) m) : Burnt d (l ++ m) := by
  intro n e he
  rcases Nat.lt_or_ge n l.length with hn | hn
  · rw [List.getElem?_append_left hn] at he
    rw [take_append_of_le_length hn.le]
    exact hl n e he
  · rw [List.getElem?_append_right hn] at he
    rw [take_append, take_of_length_le hn]
    exact (hm _ e he).append

theorem burnt_history (d : Attestations) (instances : List Instance) : Burnt d (history d instances) := by
  induction instances generalizing d with
  | nil => exact eachAfter_nil
  | cons x rest ih => exact ((x.burns d).burnt.take x.cut).append (ih _)

/-! ## Generations along a log -/

theorem Burnt.split {after : List Effect} (h : Burnt d (before ++ e :: after)) :
    Burnt d before ∧ Follows d before e := by
  constructor
  · have htake := h.take before.length
    rwa [take_left] at htake
  · have hat : (before ++ e :: after)[before.length]? = some e := by
      rw [List.getElem?_append_right le_rfl, Nat.sub_self]
      rfl
    have hfollows := h _ e hat
    rwa [take_left] at hfollows

/-- What a record reserves stays reserved. -/
theorem Burnt.reserved (h : Burnt d (l ++ m)) (ha : (replay d l).get? w = some a) :
    ∃ b, (replay d (l ++ m)).get? w = some b ∧ a.minGeneration ≤ b.minGeneration := by
  -- the log grows at its end, where the new effect follows all the others
  induction m using List.reverseRecOn with
  | nil => exact ⟨a, by rwa [append_nil], le_rfl⟩
  | append_singleton m e ih =>
    rw [← append_assoc] at h ⊢
    obtain ⟨hbefore, hfollows⟩ := h.split
    obtain ⟨b, hb, hab⟩ := ih hbefore
    rw [replay_concat]
    cases e with
    | attested c =>
      by_cases hw : w = c.workspaceId
      · refine ⟨c, ?_, hab.trans (hfollows b (hw ▸ hb))⟩
        change ((replay d (l ++ m)).put c).get? w = some c
        rw [Attestations.get?_put, if_pos hw]
      · refine ⟨b, ?_, hab⟩
        change ((replay d (l ++ m)).put c).get? w = some b
        rw [Attestations.get?_put, if_neg hw]
        exact hb
    | startCalled | stopCalled | stopReturned | observeCalled | recorded => exact ⟨b, hb, hab⟩

/-- When a generation is used, the directory has it reserved. -/
theorem Follows.reserved (h : Follows d before (.startCalled i)) :
    ∃ a, (replay d before).get? i.workspaceId = some a ∧ a.minGeneration = i.generation := by
  obtain ⟨earlier, a, rfl, hw, hg, -⟩ := h
  refine ⟨a, ?_, hg⟩
  rw [replay_concat]
  change ((replay d earlier).put a).get? i.workspaceId = some a
  rw [Attestations.get?_put, if_pos hw.symm]

/-- The generation of the workspace that an effect passes to `executor.start`. -/
def Effect.generation? (w : String) : Effect → Option ℕ
  | .startCalled i => if i.workspaceId = w then some i.generation else none
  | _ => none

theorem Effect.generation?_eq_some {g : ℕ} (h : e.generation? w = some g) :
    ∃ i, e = .startCalled i ∧ i.workspaceId = w ∧ i.generation = g := by
  cases e with
  | startCalled i =>
    obtain ⟨hw, hg⟩ := Option.ite_none_right_eq_some.mp h
    exact ⟨i, rfl, hw, Option.some.inj hg⟩
  | stopCalled | stopReturned | observeCalled | recorded | attested => cases h

/-- A start uses a higher generation than the starts before it. -/
theorem Burnt.increases {j : Identity} (h : Burnt d before)
    (hi : Follows d before (.startCalled i)) (hj : .startCalled j ∈ before)
    (hw : j.workspaceId = i.workspaceId) : j.generation < i.generation := by
  obtain ⟨earlier, a, rfl, -, -, hbelow⟩ := hi
  -- the last effect is the record, so the other start is among the earlier ones
  have hearlier : .startCalled j ∈ earlier := by
    rcases mem_append.mp hj with hmem | hmem
    · exact hmem
    · cases mem_singleton.mp hmem
  obtain ⟨l, m, rfl⟩ := append_of_mem hearlier
  obtain ⟨hburnt, -⟩ := h.split
  obtain ⟨b, hb, hgeneration⟩ := (hburnt.split).2.reserved
  have hstart : (replay d (l ++ [.startCalled j])).get? j.workspaceId = some b := by
    rw [replay_concat]
    exact hb
  rw [append_cons] at hburnt hbelow
  obtain ⟨c, hc, hbc⟩ := hburnt.reserved hstart
  have hlt := hbelow c (hw ▸ hc)
  omega

theorem Burnt.pairwise {log : List Effect} (h : Burnt d log) (w : String) :
    (log.filterMap (Effect.generation? w)).Pairwise (· < ·) := by
  induction log using List.reverseRecOn with
  | nil => exact .nil
  | append_singleton log e ih =>
    obtain ⟨hlog, he⟩ := h.split
    rw [filterMap_append, pairwise_append]
    refine ⟨ih hlog, pairwise_filterMap.mpr (pairwise_singleton _ _), ?_⟩
    intro g hg g' hg'
    obtain ⟨e', hmem, he'⟩ := mem_filterMap.mp hg
    obtain ⟨_, hlast, hgen⟩ := mem_filterMap.mp hg'
    obtain rfl := mem_singleton.mp hlast
    obtain ⟨j, rfl, hjw, rfl⟩ := Effect.generation?_eq_some he'
    obtain ⟨i, rfl, hiw, rfl⟩ := Effect.generation?_eq_some hgen
    exact hlog.increases he hmem (hjw.trans hiw.symm)

/-- Over all instances that share a directory, a workspace's generations reach the executor in increasing
order, and each is reserved in the directory when it does. -/
theorem starts_increase (d : Attestations) (instances : List Instance) :
    (∀ w, ((history d instances).filterMap (Effect.generation? w)).Pairwise (· < ·)) ∧
      ∀ before i after, history d instances = before ++ .startCalled i :: after →
        ∃ a, (replay d before).get? i.workspaceId = some a ∧ a.minGeneration = i.generation := by
  have hburnt := burnt_history d instances
  refine ⟨hburnt.pairwise, fun before i after heq => ?_⟩
  rw [heq] at hburnt
  exact hburnt.split.2.reserved

/-- An instance that starts a generation and is cut off in the call. -/
def Sample.instance : Instance where
  config := Sample.config
  attests := rfl
  outside := Sample.outside
  records := .empty
  events := [Sample.started 1]
  cut := 2

theorem starts_increase_cut : history .empty [Sample.instance] =
        [.attested ((Sample.identity 1).attested 1)] ++ [.startCalled (Sample.identity 1)] ∧
      ∃ a, (replay .empty [.attested ((Sample.identity 1).attested 1)]).get? "w" = some a ∧
        a.minGeneration = 1 := by
  have hhistory : history .empty [Sample.instance] =
      [.attested ((Sample.identity 1).attested 1)] ++ [.startCalled (Sample.identity 1)] := by
    decide
  exact ⟨hhistory, (starts_increase .empty [Sample.instance]).2 _ _ _ hhistory⟩

end AgentBox.Lifecycle
