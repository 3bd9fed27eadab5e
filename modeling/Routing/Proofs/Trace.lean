/-
  TRACES — a run as one list of acts.

  Steps are nested: a block holds steps, and a failure may end it early.  What a run DOES is flat:
  it moves the clock, uses the cache, enters a block, leaves it.

  1. **Acts** change a stage, which is a session together with the capacities that the open blocks
     will give back.
  2. **`Session.acts`** lists what a run does.  Which steps a failure skips shows only in the run,
     so the list depends on the session; replaying it gives the session that the run gives
     (`replay_acts`).
  3. **Reached sessions** are those after the first few acts of a run, inside a block or outside;
     every cache that a run reports is one of theirs (`reaches_report`).
  4. **Complete runs**, in which no failure ends a block, do what their steps spell out
     (`acts_eq_script`), and that no longer depends on the session.
  5. **Invariants** (`Reaches.induct`): what every act keeps holds of every session that is reached.
     The first of them is that all settings stay comparable (`Stage.Ready.act`).
-/
import Routing.Proofs.Operations

namespace Routing

/-! ## Acts and stages -/

/-- One thing that a run does. -/
inductive Act where
  | move (m : ClockMove)
  | use (u : Use)
  | enter
  | leave

/-- A session, and the capacities that the open blocks give back, the innermost first. -/
structure Stage where
  session : Session
  saved : List Setting

namespace Stage

/-- The stage after an act. -/
def act (g : Stage) : Act → Stage
  | .move m => { g with session := (g.session.step (.move m)).2 }
  | .use u => { g with session := (g.session.use u).2 }
  | .enter => ⟨g.session.withMaxSize (.int 0), g.session.cache.maxSize :: g.saved⟩
  | .leave =>
    match g.saved with
    | [] => g
    | size :: saved => ⟨g.session.withMaxSize size, saved⟩

/-- The stage after acts, one after the other. -/
def replay (g : Stage) (acts : List Act) : Stage := acts.foldl act g

theorem replay_append (g : Stage) (acts acts' : List Act) :
    g.replay (acts ++ acts') = (g.replay acts).replay acts' :=
  List.foldl_append

/-- What every act keeps, a replay keeps. -/
theorem replay_induct {P : Stage → Prop} {g : Stage} (hg : P g) {acts : List Act}
    (hact : ∀ a ∈ acts, ∀ g, P g → P (g.act a)) : P (g.replay acts) :=
  List.foldlRecOn acts act hg fun g hg a ha => hact a ha g hg

end Stage

/-! ## The acts of a run -/

namespace Session

mutual

/-- The acts of one step. -/
def stepActs (s : Session) : Step → List Act
  | .move m => [.move m]
  | .use u => [.use u]
  | .disabled propagate body =>
    .enter :: (acts propagate (s.withMaxSize (.int 0)) body ++ [.leave])

/-- The **acts of a run**: those of its steps, up to the failure that ends it. -/
def acts (propagate : Bool) (s : Session) : List Step → List Act
  | [] => []
  | x :: rest =>
    stepActs s x ++
      match stopBy propagate (s.step x).1 with
      | some _ => []
      | none => acts propagate (s.step x).2 rest

end

/-- Steps, by the first of them. -/
theorem steps_cons (propagate : Bool) (s : Session) (x : Step) (rest : List Step) :
    s.steps propagate (x :: rest) =
      match stopBy propagate (s.step x).1 with
      | some f => ([((s.step x).1, some (s.step x).2.cache)], some f, (s.step x).2)
      | none =>
        (((s.step x).1, some (s.step x).2.cache) :: ((s.step x).2.steps propagate rest).1,
          ((s.step x).2.steps propagate rest).2) := by
  obtain ⟨outcome, s', hx⟩ : ∃ outcome s', s.step x = (outcome, s') := ⟨_, _, rfl⟩
  cases hstop : stopBy propagate outcome <;> simp only [steps, hx, hstop]

mutual

theorem replay_stepActs (s : Session) (saved : List Setting) :
    ∀ x : Step, Stage.replay ⟨s, saved⟩ (s.stepActs x) = ⟨(s.step x).2, saved⟩
  | .move m => rfl
  | .use u => rfl
  | .disabled propagate body => by
    -- While the body is replayed, the capacity that this block gives back is saved first.
    have hbody := replay_acts propagate (s.withMaxSize (.int 0)) (s.cache.maxSize :: saved) body
    rw [stepActs, step]
    show Stage.replay ⟨s.withMaxSize (.int 0), s.cache.maxSize :: saved⟩
      (acts propagate (s.withMaxSize (.int 0)) body ++ [.leave]) = _
    rw [Stage.replay_append, hbody]
    rfl

/-- **Replaying the acts of a run gives the session that the run gives**, and leaves every block
    that it enters. -/
theorem replay_acts (propagate : Bool) (s : Session) (saved : List Setting) :
    ∀ body : List Step, Stage.replay ⟨s, saved⟩ (s.acts propagate body)
      = ⟨(s.steps propagate body).2.2, saved⟩
  | [] => rfl
  | x :: rest => by
    rw [acts, steps_cons, Stage.replay_append, replay_stepActs s saved x]
    cases stopBy propagate (s.step x).1 with
    | some f => rfl
    | none => exact replay_acts propagate (s.step x).2 saved rest

end

/-! ## Reached sessions -/

/-- The session `t` comes up while steps are taken from `s` on. -/
def Reaches (s : Session) (propagate : Bool) (body : List Step) (t : Session) : Prop :=
  ∃ before, before <+: s.acts propagate body ∧ (Stage.replay ⟨s, []⟩ before).session = t

section
variable {s t : Session} {propagate : Bool} {body : List Step}

theorem cache_move (m : ClockMove) : (s.step (.move m)).2.cache = s.cache := by
  rw [step]
  cases s.clock.move m <;> rfl

theorem reaches_last : s.Reaches propagate body (s.steps propagate body).2.2 :=
  ⟨_, List.prefix_refl _, by rw [replay_acts]⟩

theorem reaches_step (x : Step) (rest : List Step) :
    s.Reaches propagate (x :: rest) (s.step x).2 :=
  ⟨s.stepActs x, List.prefix_append _ _, by rw [replay_stepActs]⟩

theorem Reaches.cons {x : Step} {rest : List Step} (hstop : stopBy propagate (s.step x).1 = none)
    (h : (s.step x).2.Reaches propagate rest t) : s.Reaches propagate (x :: rest) t := by
  obtain ⟨before, hbefore, ht⟩ := h
  refine ⟨s.stepActs x ++ before, ?_, ?_⟩
  · rw [acts, hstop]
    exact (List.prefix_append_right_inj _).mpr hbefore
  · rwa [Stage.replay_append, replay_stepActs]

/-- **Every cache that a run reports is one of a session that it reaches.** -/
theorem reaches_report :
    ∀ report ∈ (s.steps propagate body).1, ∃ t, s.Reaches propagate body t ∧
      report.2 = some t.cache := by
  induction body generalizing s with
  | nil => exact fun report h => absurd h List.not_mem_nil
  | cons x rest ih =>
    intro report hreport
    rw [steps_cons] at hreport
    cases hstop : stopBy propagate (s.step x).1 with
    | some f =>
      rw [hstop] at hreport
      exact ⟨_, reaches_step x rest, congrArg Prod.snd (List.mem_singleton.mp hreport)⟩
    | none =>
      rw [hstop] at hreport
      rcases List.mem_cons.mp hreport with rfl | hreport
      · exact ⟨_, reaches_step x rest, rfl⟩
      · obtain ⟨t, ht, hcache⟩ := ih report hreport
        exact ⟨t, ht.cons hstop, hcache⟩

/-- **What every act keeps holds of every session that is reached.** -/
theorem Reaches.induct {P : Stage → Prop} (hs : P ⟨s, []⟩)
    (hact : ∀ a ∈ s.acts propagate body, ∀ g, P g → P (g.act a))
    (ht : s.Reaches propagate body t) : ∃ saved, P ⟨t, saved⟩ := by
  obtain ⟨before, hbefore, rfl⟩ := ht
  exact ⟨_, Stage.replay_induct hs fun a ha => hact a (hbefore.subset ha)⟩

end

end Session

/-! ## Runs that no failure cuts short -/

mutual

/-- The acts that a step **spells out**. -/
def Step.script : Step → List Act
  | .move m => [.move m]
  | .use u => [.use u]
  | .disabled _ body => .enter :: (script body ++ [.leave])

/-- The acts that steps spell out. -/
def script : List Step → List Act
  | [] => []
  | x :: rest => x.script ++ script rest

end

theorem script_append (body body' : List Step) :
    script (body ++ body') = script body ++ script body' := by
  induction body with
  | nil => rfl
  | cons x rest ih => rw [List.cons_append, script, script, ih, List.append_assoc]

namespace Session

mutual

/-- No failure ends a block that a step is, or one in it. -/
def stepCompletes (s : Session) : Step → Bool
  | .move _ | .use _ => true
  | .disabled propagate body => completes propagate (s.withMaxSize (.int 0)) body

/-- **No failure ends these steps**, or a block in them: each one is kept to its own step. -/
def completes (propagate : Bool) (s : Session) : List Step → Bool
  | [] => true
  | x :: rest =>
    stepCompletes s x && (stopBy propagate (s.step x).1).isNone &&
      completes propagate (s.step x).2 rest

end

theorem completes_cons {propagate : Bool} {s : Session} {x : Step} {rest : List Step} :
    s.completes propagate (x :: rest) = true ↔ s.stepCompletes x = true ∧
      stopBy propagate (s.step x).1 = none ∧ (s.step x).2.completes propagate rest = true := by
  rw [completes, Bool.and_eq_true, Bool.and_eq_true, Option.isNone_iff_eq_none, and_assoc]

mutual

theorem stepActs_eq_script (s : Session) :
    ∀ x : Step, s.stepCompletes x = true → s.stepActs x = x.script
  | .move m, _ => rfl
  | .use u, _ => rfl
  | .disabled propagate body, h => by
    rw [stepActs, Step.script, acts_eq_script propagate (s.withMaxSize (.int 0)) body h]

/-- **A run that no failure cuts short** does what its steps spell out. -/
theorem acts_eq_script (propagate : Bool) (s : Session) :
    ∀ body : List Step, s.completes propagate body = true → s.acts propagate body = script body
  | [], _ => rfl
  | x :: rest, h => by
    obtain ⟨hx, hstop, hrest⟩ := completes_cons.mp h
    rw [acts, hstop, stepActs_eq_script s x hx, script]
    dsimp only
    rw [acts_eq_script propagate (s.step x).2 rest hrest]

end

theorem steps_of_completes {propagate : Bool} {s : Session} {body : List Step}
    (h : s.completes propagate body = true) : (s.steps propagate body).2.1 = none := by
  induction body generalizing s with
  | nil => rfl
  | cons x rest ih =>
    obtain ⟨-, hstop, hrest⟩ := completes_cons.mp h
    rw [steps_cons, hstop]
    exact ih hrest

/-- A block that no failure ends does not fail. -/
theorem stopBy_disabled {s : Session} {propagate : Bool} {body : List Step}
    (h : s.stepCompletes (.disabled propagate body) = true) (outer : Bool) :
    stopBy outer (s.step (.disabled propagate body)).1 = none := by
  have hstop := steps_of_completes h
  rw [step]
  dsimp only
  rw [hstop]
  rfl

end Session

/-! ## Settings stay comparable -/

/-- An act that assigns no setting that could make an operation fail. -/
def Act.Admissible : Act → Prop
  | .use (.assign knob v) => knob.Admits v
  | _ => True

instance (a : Act) : Decidable a.Admissible :=
  match a with
  | .use (.assign knob v) => inferInstanceAs (Decidable (knob.Admits v))
  | .use (.compile _) | .use (.get _) | .use (.put ..) | .use (.remove _) | .use .clear
  | .use .resetStats | .use .size | .use (.contains _) | .move _ | .enter | .leave => isTrue trivial

/-- A stage in which every operation has a result. -/
structure Stage.Ready (g : Stage) : Prop where
  cache : g.session.cache.Ready
  saved : ∀ size ∈ g.saved, Knob.maxSize.Admits size

namespace Session

theorem Compiling.setting {s s' : Session} {source : Text} {outcome : Except Failure Route}
    (h : s.Compiling source outcome s') (k : Knob) : s'.cache.setting k = s.cache.setting k := by
  cases h with
  | hit hlookup => exact hlookup.setting k
  | rejected hlookup => exact (Cache.setting_count _ _ k).trans (hlookup.setting k)
  | stored hlookup _ _ hstore =>
    exact (Cache.setting_count _ _ k).trans ((hstore.setting k).trans (hlookup.setting k))

/-- No use but an assignment changes a setting. -/
theorem Effect.setting {s s' : Session} {u : Use} {outcome : Except Failure Reply}
    (h : s.Effect u outcome s') (k : Knob) :
    s'.cache.setting k = match u with
      | .assign knob v => if k = knob then v else s.cache.setting k
      | _ => s.cache.setting k := by
  cases h with
  | compile h => exact h.setting k
  | get hlookup => exact hlookup.setting k
  | put _ hstore => exact hstore.setting k
  | remove => exact Cache.setting_withEntries _ _ k
  | clear => exact Cache.setting_withEntries _ _ k
  | resetStats => cases k <;> rfl
  | assign => exact Cache.setting_assign _ _ _ k
  | refused | size | contains => rfl

theorem Effect.ready {s s' : Session} {u : Use} {outcome : Except Failure Reply}
    (h : s.Effect u outcome s') (hs : s.cache.Ready) (hu : (Act.use u).Admissible) :
    s'.cache.Ready := by
  intro k
  rw [h.setting k]
  cases u with
  | assign knob v =>
    show k.Admits (if k = knob then v else s.cache.setting k)
    split
    · next heq => rwa [heq]
    · exact hs k
  | _ => exact hs k

end Session

theorem Stage.Ready.act {g : Stage} (h : g.Ready) {a : Act} (ha : a.Admissible) :
    (g.act a).Ready := by
  cases a with
  | move m =>
    refine ⟨?_, h.saved⟩
    rw [Stage.act, Session.cache_move]
    exact h.cache
  | use u => exact ⟨(Session.effect h.cache u).ready h.cache ha, h.saved⟩
  | enter => exact ⟨h.cache.assign rfl, List.forall_mem_cons.mpr ⟨h.cache .maxSize, h.saved⟩⟩
  | leave =>
    obtain ⟨session, saved⟩ := g
    cases saved with
    | nil => exact h
    | cons size saved =>
      obtain ⟨hsize, hsaved⟩ := List.forall_mem_cons.mp h.saved
      exact ⟨h.cache.assign hsize, hsaved⟩

end Routing
