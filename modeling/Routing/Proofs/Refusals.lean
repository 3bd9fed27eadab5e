/-
  REFUSALS — a refused source leaves nothing behind but its counts.

  A source is looked up before it is refused, and a lookup can change a cache.  So whether the
  refusals of a run can be left out is a question about two runs: the run, and the run without them.

  1. **Futile acts** compile a source that does not compile.  Which acts these are can be told from
     the sources alone.
  2. **The crux** (`Session.use_refused`): where all keys compile, no entry has a refused source as
     its key.  So its lookup finds nothing and removes nothing.  What is left of it are counts and
     a reading of the stopwatch, and the session stays a twin of one that is not asked.
  3. **Runs** (`Stage.Twin.run`).  A futile act is made on one side only, every other act on both,
     and the two stay twins.  So the run without the futile acts shows what the run shows.
  4. **Steps.**  Acts that no failure cuts short are those that the steps spell out, so leaving
     steps out is leaving acts out (`script_prune`), and no failure ends a block in what is left
     (`Session.completes_prune`).
-/
import Routing.Proofs.Accounting
import Routing.Proofs.StackProperty
import Routing.Proofs.Twins

namespace Routing

/-! ## Refused sources -/

/-- Every key is a source that compiles. -/
def Cache.Keyed (c : Cache) : Prop := ∀ e ∈ c.entries, accepted e.key = true

/-- An act that stores under no key but one that compiles. -/
def Act.StoresAccepted : Act → Prop
  | .use (.put key _ _) => accepted key = true
  | _ => True

instance (a : Act) : Decidable a.StoresAccepted :=
  match a with
  | .use (.put key _ _) => inferInstanceAs (Decidable (accepted key = true))
  | .use (.compile _) | .use (.get _) | .use (.remove _) | .use .clear | .use .resetStats
  | .use .size | .use (.contains _) | .use (.assign ..) | .move _ | .enter | .leave =>
    isTrue trivial

theorem Cache.Keyed.find? {c : Cache} (h : c.Keyed) {key : Text} (hkey : accepted key = false) :
    c.find? key = none := by
  cases hfind : c.find? key with
  | none => rfl
  | some e =>
    obtain ⟨hmem, rfl⟩ := find?_eq_some hfind
    nomatch hkey.symm.trans (h e hmem)

/-- A cache that has looked a source up in vain, and refused it, is further ahead of its twin. -/
theorem Cache.Twin.refuse {n : Nat} {c d : Cache} (h : c.Twin n d) :
    ((c.count .miss).count .reject).Twin (n + c.counting.isOn.toNat) d := by
  refine ⟨fun k => ?_, ?_, ?_⟩
  · rw [setting_count, setting_count]
    exact h.settings k
  · rw [count_entries, count_entries]
    exact h.entries
  · cases hon : c.counting.isOn with
    | true =>
      have hmiss : (c.count .miss).counting.isOn = true := by rwa [count_counting]
      rw [count_of_on hmiss, count_of_on hon]
      exact ⟨h.stats.hits, h.stats.evictions, congrArg (· + 1) h.stats.misses,
        congrArg (· + 1) h.stats.errors⟩
    | false =>
      have hoff : ¬ c.counting.isOn = true := by rw [hon]; exact Bool.false_ne_true
      have hsame : c.count .miss = c := if_neg hoff
      have hsame' : c.count .reject = c := if_neg hoff
      rw [hsame, hsame']
      exact h.stats

namespace Session

variable {n : Nat} {s s' t : Session}

theorem Effect.keyed {u : Use} {outcome : Except Failure Reply} (hs : s.cache.Keyed)
    (hu : (Act.use u).StoresAccepted) (h : s.Effect u outcome s') : s'.cache.Keyed := by
  refine h.forall_entry (P := fun key _ => accepted key = true) (fun _ _ => accepted_of_ok) ?_ hs
  rintro key pattern time r rfl -
  exact hu

/-- **A source that does not compile is refused, and nothing but counts is left of it.** -/
theorem use_refused (hkeyed : s.cache.Keyed) {source : Text} (hsource : accepted source = false) :
    ∃ e, s.use (.compile source) = (.error (.pattern (.rejected e)),
      ⟨s.clock.lap.2, (s.cache.count .miss).count .reject⟩) := by
  cases he : Route.compile source with
  | ok r => nomatch hsource.symm.trans (accepted_of_ok he)
  | error e =>
    have hcompiling := Compiling.rejected (.absent (hkeyed.find? hsource)) he
    exact ⟨e, (Effect.compile hcompiling).eq⟩

/-- A source that compiles is not refused. -/
theorem not_refused (hready : s.cache.Ready) {source : Text} (hsource : accepted source = true) :
    refused (s.use (.compile source)).1 = false := by
  have heffect := effect hready (.compile source)
  generalize (s.use (.compile source)).1 = outcome at heffect
  generalize (s.use (.compile source)).2 = s' at heffect
  cases heffect with
  | compile h =>
    cases h with
    | hit | stored => rfl
    | rejected _ he => nomatch (accepted_of_error he).symm.trans hsource

end Session

/-! ## Acts -/

/-- An act that compiles a source which does not compile. -/
def Act.futile : Act → Bool
  | .use (.compile source) => !accepted source
  | _ => false

/-- How far one statistic is ahead after an act that is left out if it is futile, where counting is
    on or off. -/
def Act.ahead (on : Bool) (n : Nat) : Act → Nat
  | .use (.compile source) => if accepted source then n else n + on.toNat
  | .use .resetStats => 0
  | _ => n

namespace Stage

/-- The outcome of an act. -/
def outcome (g : Stage) : Act → Except Failure Reply
  | .move m => (g.session.step (.move m)).1
  | .use u => (g.session.use u).1
  | .enter | .leave => .ok .none

/-- An act compiles a source and is refused. -/
def refuses (g : Stage) : Act → Bool
  | .use (.compile source) => refused (g.outcome (.use (.compile source)))
  | _ => false

/-- Stages with **twin sessions**, whose open blocks give back the same capacities. -/
structure Twin (n : Nat) (g h : Stage) : Prop where
  session : g.session.Twin n h.session
  saved : g.saved = h.saved

/-- A stage in which every operation has a result, and every key compiles. -/
structure Sound (g : Stage) : Prop where
  ready : g.Ready
  keyed : g.session.cache.Keyed

theorem Sound.act {g : Stage} (h : g.Sound) {a : Act} (ha : a.Admissible)
    (hstores : a.StoresAccepted) : (g.act a).Sound := by
  refine ⟨h.ready.act ha, ?_⟩
  cases a with
  | move m =>
    rw [Stage.act, Session.cache_move]
    exact h.keyed
  | use u => exact (Session.effect h.ready.cache u).keyed h.keyed hstores
  | enter => exact h.keyed
  | leave =>
    obtain ⟨session, saved⟩ := g
    cases saved <;> exact h.keyed

namespace Twin

variable {n : Nat} {g h : Stage}

/-- **What an act does to a stage, it does to its twin**, with the same outcome. -/
theorem act (htwin : g.Twin n h) (hg : g.Sound) {a : Act} (ha : a.futile = false) :
    h.outcome a = g.outcome a ∧
      (g.act a).Twin (a.ahead g.session.cache.counting.isOn n) (h.act a) := by
  obtain ⟨hsession, hsaved⟩ := htwin
  cases a with
  | move m =>
    obtain ⟨houtcome, hmoved⟩ := hsession.move m
    exact ⟨houtcome, hmoved, hsaved⟩
  | use u =>
    obtain ⟨houtcome, hused⟩ := hsession.use hg.ready.cache u
    refine ⟨houtcome, ?_, hsaved⟩
    cases u with
    | compile source =>
      have hsource : accepted source = true := by
        rwa [Act.futile, Bool.not_eq_false'] at ha
      rw [Act.ahead, if_pos hsource]
      exact hused
    | _ => exact hused
  | enter =>
    have hsize : g.session.cache.maxSize = h.session.cache.maxSize := hsession.cache.maxSize
    exact ⟨rfl, hsession.withMaxSize _, congrArg₂ List.cons hsize hsaved⟩
  | leave =>
    refine ⟨rfl, ?_⟩
    obtain ⟨s, saved⟩ := g
    obtain ⟨t, saved'⟩ := h
    cases hsaved
    cases saved with
    | nil => exact ⟨hsession, rfl⟩
    | cons size saved => exact ⟨hsession.withMaxSize size, rfl⟩

/-- **A futile act leaves a twin** of a stage without it. -/
theorem refuse (htwin : g.Twin n h) (hg : g.Sound) {a : Act} (ha : a.futile = true) :
    (g.act a).Twin (a.ahead g.session.cache.counting.isOn n) h := by
  cases a with
  | use u =>
    cases u with
    | compile source =>
      have hsource : accepted source = false := by
        rwa [Act.futile, Bool.not_eq_true'] at ha
      obtain ⟨e, huse⟩ := Session.use_refused hg.keyed hsource
      rw [Act.ahead, hsource, Stage.act, huse]
      exact ⟨⟨htwin.session.now, htwin.session.cache.refuse⟩, htwin.saved⟩
    | _ => exact absurd ha Bool.false_ne_true
  | move | enter | leave => exact absurd ha Bool.false_ne_true

end Twin

/-- Futile acts are those that are refused. -/
theorem Sound.refuses {g : Stage} (hg : g.Sound) (a : Act) : g.refuses a = a.futile := by
  cases a with
  | use u =>
    cases u with
    | compile source =>
      cases hsource : accepted source with
      | true =>
        rw [Act.futile, hsource]
        exact Session.not_refused hg.ready.cache hsource
      | false =>
        obtain ⟨e, huse⟩ := Session.use_refused hg.keyed hsource
        rw [Stage.refuses, outcome, huse, Act.futile, hsource]
        rfl
    | _ => rfl
  | move | enter | leave => rfl

/-! ### Transcripts -/

/-- What an act **shows**: its outcome, and the entries after it, without the times that compiling
    took, with the capacity and the time to live. -/
structure Shown where
  act : Act
  outcome : Except Failure Reply
  entries : List Entry
  maxSize : Setting
  ttl : Setting

/-- What an act shows. -/
def shown (g : Stage) (a : Act) : Shown :=
  ⟨a, g.outcome a, (g.act a).entries.map Entry.untimed, (g.act a).session.cache.maxSize,
    (g.act a).session.cache.ttl⟩

/-- How far one statistic is ahead after acts of which the futile ones are left out. -/
def ahead (g : Stage) (n : Nat) : List Act → Nat
  | [] => n
  | a :: rest => (g.act a).ahead (a.ahead g.session.cache.counting.isOn n) rest

theorem Twin.shown {n : Nat} {g h : Stage} (htwin : g.Twin n h) (hg : g.Sound) {a : Act}
    (ha : a.futile = false) : h.shown a = g.shown a := by
  obtain ⟨houtcome, hafter⟩ := htwin.act hg ha
  have hentries : (g.act a).entries.map Entry.untimed = (h.act a).entries.map Entry.untimed :=
    hafter.session.cache.entries
  rw [Stage.shown, Stage.shown, houtcome, hentries, hafter.session.cache.maxSize,
    hafter.session.cache.ttl]

/-- **A run without its futile acts** shows what the run shows, but for what is refused there, and
    it ends in a twin. -/
theorem Twin.run {n : Nat} {g h : Stage} (htwin : g.Twin n h) (hg : g.Sound) (acts : List Act)
    (hacts : ∀ a ∈ acts, a.Admissible ∧ a.StoresAccepted) :
    (h.trail (acts.filter (!·.futile))).map (fun p => p.1.shown p.2)
      = ((g.trail acts).filter fun p => !p.1.refuses p.2).map (fun p => p.1.shown p.2) ∧
    (g.replay acts).Twin (g.ahead n acts) (h.replay (acts.filter (!·.futile))) := by
  induction acts generalizing n g h with
  | nil => exact ⟨rfl, htwin⟩
  | cons a rest ih =>
    obtain ⟨⟨hadmissible, hstores⟩, hrest⟩ := List.forall_mem_cons.mp hacts
    have hsound := hg.act hadmissible hstores
    have hrefuses := hg.refuses a
    rw [trail, List.filter_cons, List.filter_cons, hrefuses]
    cases ha : a.futile with
    | true => exact ih (htwin.refuse hg ha) hsound hrest
    | false =>
      obtain ⟨hshown, hlast⟩ := ih (htwin.act hg ha).2 hsound hrest
      refine ⟨?_, hlast⟩
      show h.shown a :: _ = g.shown a :: _
      rw [htwin.shown hg ha]
      exact congrArg _ hshown

end Stage

/-! ### Counting that stays on -/

/-- Whether an act resets what has been counted. -/
def Act.resets : Act → Bool
  | .use .resetStats => true
  | _ => false

/-- How many acts are **futile after the last reset**. -/
def futileSinceReset (acts : List Act) : Nat :=
  (acts.reverse.takeWhile (!·.resets)).countP Act.futile

theorem foldl_ahead (acts : List Act) : acts.foldl (Act.ahead true) 0 = futileSinceReset acts := by
  induction acts using List.reverseRecOn with
  | nil => rfl
  | append_singleton acts a ih =>
    rw [List.foldl_concat, ih, futileSinceReset, futileSinceReset, List.reverse_concat,
      List.takeWhile_cons]
    cases a with
    | use u =>
      cases u with
      | compile source =>
        show _ = List.countP Act.futile (_ :: _)
        rw [List.countP_cons, Act.ahead, Act.futile]
        cases accepted source <;> rfl
      | resetStats => rfl
      | _ => exact (List.countP_cons_of_neg Bool.false_ne_true).symm
    | move | enter | leave => exact (List.countP_cons_of_neg Bool.false_ne_true).symm

namespace Stage

/-- While counting is on, a run is ahead by its futile acts since the last reset. -/
theorem ahead_eq {g : Stage} (hg : g.Ready) (hon : g.session.cache.counting.isOn = true) (n : Nat)
    (acts : List Act) (hacts : ∀ a ∈ acts, a.Admissible ∧ a.LeavesOn) :
    g.ahead n acts = acts.foldl (Act.ahead true) n := by
  induction acts generalizing n g with
  | nil => rfl
  | cons a rest ih =>
    obtain ⟨⟨hadmissible, hleaves⟩, hrest⟩ := List.forall_mem_cons.mp hacts
    rw [ahead, hon, List.foldl_cons]
    exact ih (hg.act hadmissible) (on_act hg hleaves hon) _ hrest

end Stage

/-! ## Steps -/

mutual

/-- A step without its futile compilations, if it is not one itself. -/
def Step.prune? : Step → Option Step
  | .move m => some (.move m)
  | .use u => if (Act.use u).futile then none else some (.use u)
  | .disabled propagate body => some (.disabled propagate (prune body))

/-- Steps **without their futile compilations**, inside blocks and outside. -/
def prune : List Step → List Step
  | [] => []
  | x :: rest => x.prune?.toList ++ prune rest

end

mutual

theorem Step.script_prune? :
    ∀ x : Step, Routing.script x.prune?.toList = x.script.filter (!·.futile)
  | .move m => rfl
  | .use u => by
    rw [Step.prune?, Step.script, List.filter_singleton]
    cases (Act.use u).futile <;> rfl
  | .disabled propagate body => by
    have hbody := script_prune body
    show Act.enter :: (Routing.script (prune body) ++ [.leave]) ++ [] = _
    rw [hbody, List.append_nil, Step.script, List.filter_cons, List.filter_append]
    rfl

/-- **Leaving steps out is leaving acts out.** -/
theorem script_prune : ∀ body : List Step, script (prune body) = (script body).filter (!·.futile)
  | [] => rfl
  | x :: rest => by
    rw [prune, script_append, Step.script_prune? x, script_prune rest, script, List.filter_append]

end

namespace Session

/-! ### A run and the run without futile compilations -/

variable {n : Nat} {s t : Session}

theorem sound_block (hs : Stage.Sound ⟨s, []⟩) : Stage.Sound ⟨s.withMaxSize (.int 0), []⟩ :=
  ⟨⟨hs.ready.cache.assign rfl, hs.ready.saved⟩, hs.keyed⟩

section
variable {x : Step} (hacts : ∀ a ∈ x.script, a.Admissible ∧ a.StoresAccepted)
  (hx : s.stepCompletes x = true)
include hacts hx

theorem sound_step (hs : Stage.Sound ⟨s, []⟩) : Stage.Sound ⟨(s.step x).2, []⟩ := by
  rw [← replay_stepActs, stepActs_eq_script s x hx]
  exact Stage.replay_induct hs fun a ha g hg => hg.act (hacts a ha).1 (hacts a ha).2

/-- What is left of a step leads to a twin of where the step leads. -/
theorem twin_replay (htwin : s.Twin n t) (hs : Stage.Sound ⟨s, []⟩) :
    ∃ m, Stage.Twin m ⟨(s.step x).2, []⟩ (Stage.replay ⟨t, []⟩ (script x.prune?.toList)) := by
  have hstages : Stage.Twin n ⟨s, []⟩ ⟨t, []⟩ := ⟨htwin, rfl⟩
  obtain ⟨-, hlast⟩ := hstages.run hs x.script hacts
  rw [← stepActs_eq_script s x hx, replay_stepActs, stepActs_eq_script s x hx,
    ← Step.script_prune?] at hlast
  exact ⟨_, hlast⟩

end

mutual

/-- If no failure ends a step, none ends what is left of it. -/
theorem completes_prune? {n : Nat} {s t : Session} (htwin : s.Twin n t) (hs : Stage.Sound ⟨s, []⟩) :
    ∀ x : Step, (∀ a ∈ x.script, a.Admissible ∧ a.StoresAccepted) → s.stepCompletes x = true →
      ∀ x', x.prune? = some x' → t.stepCompletes x' = true ∧
        ∀ propagate, stopBy propagate (s.step x).1 = none → stopBy propagate (t.step x').1 = none
  | .move m, _, _, x', hx' => by
    cases hx'
    refine ⟨rfl, fun propagate hstop => ?_⟩
    rw [(htwin.move m).1]
    exact hstop
  | .use u, _, _, x', hx' => by
    rw [Step.prune?] at hx'
    split at hx'
    · nomatch hx'
    · cases hx'
      refine ⟨rfl, fun propagate hstop => ?_⟩
      have houtcome : (t.step (.use u)).1 = (s.step (.use u)).1 := (htwin.use hs.ready.cache u).1
      rw [houtcome]
      exact hstop
  | .disabled propagate body, hacts, hx, x', hx' => by
    cases hx'
    have hinside : ∀ a ∈ script body, a.Admissible ∧ a.StoresAccepted := fun a ha =>
      hacts a (List.mem_cons_of_mem _ (List.mem_append_left _ ha))
    have hbody : t.stepCompletes (.disabled propagate (prune body)) = true :=
      completes_prune (htwin.withMaxSize (.int 0)) (sound_block hs) body hinside hx
    exact ⟨hbody, fun outer _ => stopBy_disabled hbody outer⟩

/-- **If no failure ends a run, none ends what is left of it.** -/
theorem completes_prune {n : Nat} {s t : Session} {propagate : Bool} (htwin : s.Twin n t)
    (hs : Stage.Sound ⟨s, []⟩) :
    ∀ body : List Step, (∀ a ∈ script body, a.Admissible ∧ a.StoresAccepted) →
      s.completes propagate body = true → t.completes propagate (prune body) = true
  | [], _, _ => rfl
  | x :: rest, hacts, h => by
    rw [script, List.forall_mem_append] at hacts
    obtain ⟨hx, hstop, hrest⟩ := completes_cons.mp h
    obtain ⟨m, htwin'⟩ := twin_replay hacts.1 hx htwin hs
    have hs' := sound_step hacts.1 hx hs
    have hleft := completes_prune? htwin hs x hacts.1 hx
    rw [prune]
    cases hx' : x.prune? with
    | none =>
      rw [hx'] at htwin'
      exact completes_prune htwin'.session hs' rest hacts.2 hrest
    | some x' =>
      obtain ⟨hcompletes, hstop'⟩ := hleft x' hx'
      have hscript : script [x'] = t.stepActs x' := by
        rw [stepActs_eq_script t x' hcompletes, script, script, List.append_nil]
      rw [hx', Option.toList_some, hscript, replay_stepActs] at htwin'
      exact completes_cons.mpr ⟨hcompletes, hstop' _ hstop,
        completes_prune htwin'.session hs' rest hacts.2 hrest⟩

end

/-- **Refusals leave nothing behind but their counts.**  Take any steps from a new cache on, in
    which the capacity is always a number, the time to live a number or none, no key of a store by
    hand is refused as a source, and no failure ends a block.  Leave out every compilation of a
    source that does not compile.

    Then no failure ends a block in what is left, and it shows what the steps show, but for the
    compilations that are refused there: in the same order the same acts with the same outcomes, and
    after each the same entries, but for the time that compiling took, with the same capacity and
    time to live.  So does the end.  And if counting is on and stays on, the statistics differ at
    the end by one miss and one error for each compilation that has been left out since they were
    last reset. -/
theorem prune_traceless (clock : Clock) (maxSize ttl counting : Setting) (body : List Step)
    (hsize : Knob.maxSize.Admits maxSize) (httl : Knob.ttl.Admits ttl)
    (hassign : ∀ a ∈ script body, a.Admissible) (hput : ∀ a ∈ script body, a.StoresAccepted)
    (hbody : completes false ⟨clock, .empty maxSize ttl counting⟩ body = true) :
    let s : Session := ⟨clock, .empty maxSize ttl counting⟩
    let full := Stage.trail ⟨s, []⟩ (s.acts false body)
    let left := Stage.trail ⟨s, []⟩ (s.acts false (prune body))
    let last := (s.run body).2.cache
    let last' := (s.run (prune body)).2.cache
    s.completes false (prune body) = true ∧
    left.map (fun p => p.1.shown p.2)
      = (full.filter fun p => !p.1.refuses p.2).map (fun p => p.1.shown p.2) ∧
    last'.entries.map Entry.untimed = last.entries.map Entry.untimed ∧
    last'.maxSize = last.maxSize ∧ last'.ttl = last.ttl ∧
    (counting.isOn = true → (∀ a ∈ script body, a.LeavesOn) →
      last.stats.Ahead (futileSinceReset (s.acts false body)) last'.stats) := by
  intro s full left last last'
  have hready : Stage.Ready ⟨s, []⟩ := Stage.ready_start clock counting hsize httl
  have hsound : Stage.Sound ⟨s, []⟩ := ⟨hready, fun e he => absurd he List.not_mem_nil⟩
  have htwin : s.Twin 0 s := ⟨rfl, fun _ => rfl, rfl, rfl, rfl, rfl, rfl⟩
  have hacts : ∀ a ∈ script body, a.Admissible ∧ a.StoresAccepted := fun a ha =>
    ⟨hassign a ha, hput a ha⟩
  have hstages : Stage.Twin 0 ⟨s, []⟩ ⟨s, []⟩ := ⟨htwin, rfl⟩
  have hfull : s.acts false body = script body := acts_eq_script false s body hbody
  have hpruned : s.completes false (prune body) = true :=
    completes_prune htwin hsound body hacts hbody
  have hleft : s.acts false (prune body) = (script body).filter (!·.futile) := by
    rw [acts_eq_script false s _ hpruned, script_prune]
  obtain ⟨hshown, hlast⟩ := hstages.run hsound (script body) hacts
  rw [← hleft, ← hfull] at hshown
  rw [← hleft, ← hfull, replay_acts, replay_acts] at hlast
  obtain ⟨-, hsettings, hentries, hstats⟩ := hlast.session
  refine ⟨hpruned, hshown, hentries.symm, (hsettings .maxSize).symm, (hsettings .ttl).symm, ?_⟩
  intro hon hleaves
  have hcount := Stage.ahead_eq hready hon 0 (script body) fun a ha => ⟨hassign a ha, hleaves a ha⟩
  rw [hfull, hcount, foldl_ahead] at hstats
  rw [hfull]
  exact hstats

/-- Sources are refused before a reset and behind it, one of them in a block, while entries are
    evicted and expire; the last block would pass a failure on, but has none. -/
def interspersed : List Step :=
  [.use (.compile "/a".toList), .use (.compile "/\x7b".toList), .use .resetStats,
    .use (.compile "/b".toList), .disabled false [.use (.compile "/\x7b".toList),
      .use (.put "/a".toList (.source "/\x7b".toList) .null), .use (.get "/a".toList)],
    .move (.advance (.int 6)), .use (.compile "/\x7b/".toList),
    .disabled true [.use (.get "/b".toList)], .use (.compile "/c".toList)]

theorem prune_traceless_interspersed :
    let s : Session := ⟨.startAt 0.0 1.0, .empty (.int 1) (.int 5) (.bool true)⟩
    let last := (s.run interspersed).2.cache
    let last' := (s.run (prune interspersed)).2.cache
    futileSinceReset (s.acts false interspersed) = 2 ∧ last.stats.misses = 6 ∧
      last.stats.Ahead (futileSinceReset (s.acts false interspersed)) last'.stats ∧
      last'.entries.map Entry.untimed = last.entries.map Entry.untimed ∧
      (Stage.trail ⟨s, []⟩ (s.acts false (prune interspersed))).map (fun p => p.1.shown p.2)
        = ((Stage.trail ⟨s, []⟩ (s.acts false interspersed)).filter
            fun p => !p.1.refuses p.2).map (fun p => p.1.shown p.2) := by
  have h := prune_traceless (.startAt 0.0 1.0) (.int 1) (.int 5) (.bool true) interspersed
    (by decide) (by decide) (by decide +kernel) (by decide +kernel) (by decide +kernel)
  dsimp only at h ⊢
  obtain ⟨-, hshown, hentries, -, -, hstats⟩ := h
  exact ⟨by decide +kernel, by decide +kernel, hstats (by decide) (by decide +kernel), hentries,
    hshown⟩

end Session

end Routing
