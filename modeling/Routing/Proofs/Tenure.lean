/-
  TENURES — which cache is the current one, and what has become of it.

  A host builds its cache when it is first needed; callers give it another one, or an old one again,
  or take it away; the environment changes under it, and blocks that disable a cache may outlive its
  being current.  What is current after all that is said here by looking back over what has been
  done.

  1. **Vacancies.**  There is no cache (`Vacant`) if none was given, or the last act that gives one
     took it away, and all acts since then that needed one were refused by the environment of their
     time.
  2. **Tenures.**  Else the cache was the last to be `Given`, or it was `Built` by the first act
     after a vacancy that needed one and was not refused.  After any acts it is one of the three.
  3. **The crux** (`Follows.change`): as long as no act gives another cache, the host does with its
     cache what a session does that begins with the tenure.  The session leaves a block when the
     host leaves one of THIS cache.  Such a block may be older than the tenure, where a cache is
     given again; so the session begins with those that are still open.
  4. **Sound** caches have settings that can be compared, and keep them, current or not, as long as
     nobody assigns them.
-/
import Mathlib.Data.List.Induction
import Routing.Proofs.HostTrace

namespace Routing

/-! ## The crux: a tenure is a session -/

namespace HostStage

/-- The capacities that the open blocks of one cache give back, the innermost first. -/
def opens (g : HostStage) (number : Nat) : List Setting :=
  (g.saved.filter fun p => p.1 = number).map Prod.snd

/-- What an act does to the current cache and the clock.  A block is left if it is one of the
    current cache. -/
def onCurrent (g : HostStage) : HostAct → List Act
  | .move m => [.move m]
  | .use u => [.use u]
  | .enter => [.enter]
  | .leave =>
    match g.saved with
    | [] => []
    | (number, _) :: _ => if g.host.current = some number then [.leave] else []
  | .setEnvironment _ | .setCache _ | .compileUncached _ | .fetch => []

/-- What acts do to the current cache and the clock, one after the other. -/
def onCurrents (g : HostStage) : List HostAct → List Act
  | [] => []
  | a :: rest => g.onCurrent a ++ (g.act a).onCurrents rest

/-- A host whose current cache **does what that of a session does**. -/
structure Follows (g : HostStage) (number : Nat) (s : Stage) : Prop where
  numbered : g.host.numbered? = some (number, s.session.cache)
  clock : g.host.clock = s.session.clock
  saved : s.saved = g.opens number

/-- The session of a current cache, with the blocks of it that are open. -/
theorem follows_numbered {g : HostStage} {number : Nat} {cache : Cache}
    (h : g.host.numbered? = some (number, cache)) :
    g.Follows number ⟨⟨g.host.clock, cache⟩, g.opens number⟩ :=
  ⟨h, rfl, rfl⟩

section
variable {g g' : HostStage} {s : Stage} {a : HostAct} {number : Nat}

theorem opens_cons (host : Host) (number : Nat) (size : Setting) (saved : List (Nat × Setting))
    (other : Nat) :
    opens ⟨host, (number, size) :: saved⟩ other
      = if number = other then size :: opens ⟨host, saved⟩ other
        else opens ⟨host, saved⟩ other := by
  rw [opens, List.filter_cons]
  by_cases h : number = other
  · rw [if_pos h, if_pos (decide_eq_true h)]
    rfl
  · rw [if_neg h, if_neg (by simpa using h)]
    rfl

/-- **A step of a tenure is a step of its session.** -/
theorem Follows.change (hg : g.Follows number s) (h : g.Change a g') (hgives : a.gives = false) :
    g'.Follows number (s.replay (g.onCurrent a)) := by
  obtain ⟨session, sizes⟩ := s
  obtain ⟨hnumbered, hclock, hsaved⟩ := hg
  have hfetched := Host.fetch_current hnumbered
  have hsession : Session.mk g.host.clock session.cache = session := by rw [hclock]
  obtain ⟨hcurrent, hcache⟩ := Host.numbered?_eq_some.mp hnumbered
  cases h with
  | @moved m clock hmove =>
    have hmoved := hmove session.cache
    rw [hsession] at hmoved
    show Follows _ number ⟨(session.step (.move m)).2, sizes⟩
    rw [hmoved]
    exact ⟨hnumbered, rfl, hsaved⟩
  | refused _ hfetch => cases hfetched.symm.trans hfetch
  | @used u i cache entered hfetch =>
    cases hfetched.symm.trans hfetch
    show Follows _ number ⟨(session.use u).2, sizes⟩
    rw [hsession]
    exact ⟨Host.numbered?_eq_some.mpr ⟨hcurrent, Host.caches_update hcache _⟩, rfl, hsaved⟩
  | entered hfetch =>
    cases hfetched.symm.trans hfetch
    refine ⟨Host.numbered?_update hnumbered _, hclock, ?_⟩
    rw [opens_cons, if_pos rfl]
    exact congrArg (session.cache.maxSize :: ·) hsaved
  | @left i size saved hleft =>
    obtain ⟨host, _⟩ := g
    subst hleft
    rw [opens_cons] at hsaved
    by_cases hi : i = number
    · subst hi
      have hact : onCurrent ⟨host, (i, size) :: saved⟩ .leave = [.leave] := if_pos hcurrent
      rw [if_pos rfl] at hsaved
      subst hsaved
      rw [hact, Host.giveBack_eq hcache]
      exact ⟨Host.numbered?_update hnumbered _, hclock, rfl⟩
    · -- The block belongs to another cache.
      have hact : onCurrent ⟨host, (i, size) :: saved⟩ .leave = [] :=
        if_neg fun h => hi (Option.some.inj (h.symm.trans hcurrent))
      rw [if_neg hi] at hsaved
      rw [hact]
      refine ⟨Host.numbered?_eq_some.mpr ⟨hcurrent, ?_⟩, hclock, hsaved⟩
      rw [Host.caches_giveBack, hcache, Option.map_some, if_neg hi]
      rfl
  | noBlock hnone =>
    rw [onCurrent, hnone]
    exact ⟨hnumbered, hclock, hsaved⟩
  | tookAway htook => cases htook.symm.trans hgives
  | gaveNew hbuild =>
    rw [HostAct.gives, hbuild] at hgives
    cases hgives
  | gaveAgain => cases hgives
  | environment | unbuilt | uncached => exact ⟨hnumbered, hclock, hsaved⟩
  | fetched hfetch =>
    cases hfetched.symm.trans hfetch
    exact ⟨hnumbered, hclock, hsaved⟩

/-- **A run of a tenure is a run of its session.** -/
theorem Follows.replay (hg : g.Follows number s) {acts : List HostAct}
    (hgives : ∀ a ∈ acts, a.gives = false) :
    (g.replay acts).Follows number (s.replay (g.onCurrents acts)) := by
  induction acts generalizing g s with
  | nil => exact hg
  | cons a rest ih =>
    obtain ⟨ha, hrest⟩ := List.forall_mem_cons.mp hgives
    rw [onCurrents, Stage.replay_append]
    exact ih (hg.change (g.change a) ha) hrest

/-- The act that builds a cache is the first that is done with it. -/
theorem follows_built {cache : Cache} {entered : Host} {rest : List HostAct}
    (hfetch : g.host.fetch = .ok (number, cache, entered)) (hclock : entered.clock = g.host.clock)
    (ha : a.UsesCache) (hgives : ∀ b ∈ a :: rest, b.gives = false) :
    (g.replay (a :: rest)).Follows number
      (Stage.replay ⟨⟨g.host.clock, cache⟩, g.opens number⟩ (g.onCurrents (a :: rest))) := by
  have hnumbered := (Host.fetch_eq_ok hfetch).1
  have hbegin := (follows_numbered (g := ⟨entered, g.saved⟩) hnumbered).replay hgives
  have hact : g.act a = act ⟨entered, g.saved⟩ a := act_of_fetch ha hfetch
  have honCurrent : g.onCurrent a = onCurrent ⟨entered, g.saved⟩ a := by
    cases a with
    | use | enter | fetch => rfl
    | move | leave | setEnvironment | setCache | compileUncached => exact ha.elim
  show ((g.act a).replay rest).Follows _ _
  rw [onCurrents, honCurrent, hact, ← hclock]
  exact hbegin

end

end HostStage

/-! ## Vacancies and tenures -/

namespace HostAct

/-- The settings that the environment in force after acts has for a cache. -/
def settingsAfter (environment : List (Text × Text)) (acts : List HostAct) :
    Except SettingsFault Settings :=
  (Layers.ofEnvironment (environmentAfter environment acts)).load

/-- Nothing has been done yet, or what was current has just been taken away. -/
def Bare (start : Host) (acts : List HostAct) : Prop :=
  acts = [] ∨ ∃ before a, acts = before ++ [a] ∧ a.gives = true ∧
    a.gift? (start.after before).host = none

/-- Acts that **wait for a cache** after others: they give none, and each of them that needs one
    is refused by the environment of its time. -/
structure Waiting (environment : List (Text × Text)) (earlier waiting : List HostAct) : Prop where
  gives : ∀ a ∈ waiting, a.gives = false
  refused : ∀ front a back, waiting = front ++ a :: back → a.UsesCache →
    ∃ f, settingsAfter environment (earlier ++ front) = .error f

/-- There is **no current cache** after acts. -/
def Vacant (start : Host) (acts : List HostAct) : Prop :=
  ∃ earlier waiting, acts = earlier ++ waiting ∧ Bare start earlier ∧
    Waiting start.environment earlier waiting

end HostAct

/-- How a cache has become the current one, and what has been done since. -/
structure Tenure where
  /-- The acts before it was current, and the one that gave it. -/
  earlier : List HostAct
  /-- Its number. -/
  number : Nat
  /-- The cache as it was then. -/
  cache : Cache
  /-- The acts after that, and the one that built it. -/
  since : List HostAct

namespace Tenure

open HostAct

/-- What has become of the cache: a session that begins with it, at the time it became current and
    with those of its blocks that were open, and does the acts since then. -/
def stage (t : Tenure) (start : Host) : Stage :=
  Stage.replay
    ⟨⟨(start.after t.earlier).host.clock, t.cache⟩, (start.after t.earlier).opens t.number⟩
    ((start.after t.earlier).onCurrents t.since)

/-- The current cache after acts **was given**, and none has been given since. -/
structure Given (start : Host) (acts : List HostAct) (t : Tenure) : Prop where
  split : acts = t.earlier ++ t.since
  given : ∃ before a, t.earlier = before ++ [a] ∧ a.gives = true ∧
    a.gift? (start.after before).host = some (t.number, t.cache)
  since : ∀ a ∈ t.since, a.gives = false

/-- The current cache after acts **was built** from the environment in force, by the first act after
    a vacancy that needed a cache and was not refused, and none has been given since. -/
structure Built (start : Host) (acts : List HostAct) (t : Tenure) : Prop where
  split : acts = t.earlier ++ t.since
  vacant : Vacant start t.earlier
  first : ∃ a rest, t.since = a :: rest ∧ a.UsesCache
  number : t.number = (start.after t.earlier).host.caches.length
  settings : ∃ s, settingsAfter start.environment t.earlier = .ok s ∧ t.cache = .ofSettings s
  since : ∀ a ∈ t.since, a.gives = false

/-- The tenure with one more act. -/
def concat (t : Tenure) (a : HostAct) : Tenure := { t with since := t.since ++ [a] }

end Tenure

section
open HostAct Tenure
variable {environment : List (Text × Text)} {start : Host} {acts earlier waiting : List HostAct}
  {a : HostAct} {t : Tenure}

theorem forall_gives_concat (h : ∀ b ∈ acts, b.gives = false) (ha : a.gives = false) :
    ∀ b ∈ acts ++ [a], b.gives = false :=
  List.forall_mem_append.mpr ⟨h, List.forall_mem_singleton.mpr ha⟩

theorem HostAct.Waiting.nil : Waiting environment earlier [] :=
  ⟨List.forall_mem_nil _, fun _ _ _ h _ =>
    absurd (List.append_eq_nil_iff.mp h.symm).2 (List.cons_ne_nil _ _)⟩

theorem HostAct.Waiting.concat (h : Waiting environment earlier waiting) (ha : a.gives = false)
    (hrefused : a.UsesCache → ∃ f, settingsAfter environment (earlier ++ waiting) = .error f) :
    Waiting environment earlier (waiting ++ [a]) := by
  refine ⟨forall_gives_concat h.gives ha, fun front b back hsplit huses => ?_⟩
  rcases List.eq_nil_or_concat back with rfl | ⟨back, c, rfl⟩
  · obtain ⟨rfl, hb⟩ := List.append_inj' hsplit rfl
    cases hb
    exact hrefused huses
  · rw [List.concat_eq_append, ← List.cons_append, ← List.append_assoc] at hsplit
    exact h.refused front b back (List.append_inj' hsplit rfl).1 huses

theorem HostAct.Vacant.concat (h : Vacant start acts) (ha : a.gives = false)
    (hrefused : a.UsesCache → ∃ f, settingsAfter start.environment acts = .error f) :
    Vacant start (acts ++ [a]) := by
  obtain ⟨earlier, waiting, rfl, hbare, hwaiting⟩ := h
  exact ⟨earlier, waiting ++ [a], List.append_assoc .., hbare, hwaiting.concat ha hrefused⟩

theorem Tenure.Given.concat (h : Given start acts t) (ha : a.gives = false) :
    Given start (acts ++ [a]) (t.concat a) :=
  ⟨by rw [h.split, List.append_assoc]; rfl, h.given, forall_gives_concat h.since ha⟩

theorem Tenure.Built.concat (h : Built start acts t) (ha : a.gives = false) :
    Built start (acts ++ [a]) (t.concat a) := by
  obtain ⟨b, rest, hsince, huses⟩ := h.first
  refine ⟨by rw [h.split, List.append_assoc]; rfl, h.vacant, ⟨b, rest ++ [a], ?_, huses⟩,
    h.number, h.settings, forall_gives_concat h.since ha⟩
  rw [Tenure.concat, hsince, List.cons_append]

/-- **After any acts** a cache was given, or one was built, or there is none. -/
theorem given_or_built_or_vacant (start : Host) (acts : List HostAct) :
    (∃ t, Given start acts t) ∨ (∃ t, Built start acts t) ∨ Vacant start acts := by
  induction acts using List.reverseRecOn with
  | nil => exact .inr (.inr ⟨[], [], rfl, .inl rfl, .nil⟩)
  | append_singleton acts a ih =>
    cases hgives : a.gives with
    | true =>
      cases hgift : a.gift? (start.after acts).host with
      | some gift =>
        obtain ⟨number, cache⟩ := gift
        exact .inl ⟨⟨acts ++ [a], number, cache, []⟩, (List.append_nil _).symm,
          ⟨acts, a, rfl, hgives, hgift⟩, List.forall_mem_nil _⟩
      | none =>
        exact .inr (.inr ⟨acts ++ [a], [], (List.append_nil _).symm,
          .inr ⟨acts, a, rfl, hgives, hgift⟩, .nil⟩)
    | false =>
      rcases ih with ⟨t, ht⟩ | ⟨t, ht⟩ | hvacant
      · exact .inl ⟨_, ht.concat hgives⟩
      · exact .inr (.inl ⟨_, ht.concat hgives⟩)
      · by_cases huses : a.UsesCache
        · cases hload : settingsAfter start.environment acts with
          | ok s =>
            exact .inr (.inl ⟨⟨acts, (start.after acts).host.caches.length, .ofSettings s, [a]⟩,
              rfl, hvacant, ⟨a, [], rfl, huses⟩, rfl, ⟨s, hload, rfl⟩,
              List.forall_mem_singleton.mpr hgives⟩)
          | error f => exact .inr (.inr (hvacant.concat hgives fun _ => ⟨f, hload⟩))
        · exact .inr (.inr (hvacant.concat hgives fun h => absurd h huses))

/-! ### What is current -/

theorem HostAct.Waiting.vacant {g : HostStage} (h : Waiting environment earlier waiting)
    (hvacant : g.host.numbered? = none)
    (henv : g.host.environment = environmentAfter environment earlier) :
    (g.replay waiting).host.numbered? = none := by
  induction waiting generalizing g earlier with
  | nil => exact hvacant
  | cons a rest ih =>
    have hrefused := h.refused [] a rest rfl
    rw [List.append_nil, settingsAfter, ← henv] at hrefused
    have hnone := (g.change a).vacant hvacant (h.gives a List.mem_cons_self) hrefused
    have hrest : Waiting environment (earlier ++ [a]) rest := by
      refine ⟨fun b hb => h.gives b (List.mem_cons_of_mem a hb), ?_⟩
      intro front b back hsplit huses
      rw [List.append_assoc]
      exact h.refused (a :: front) b back (by rw [hsplit]; rfl) huses
    refine ih hrest hnone ?_
    rw [(g.change a).environment_eq, henv, environmentAfter, environmentAfter, List.foldl_append]
    rfl

theorem HostAct.Vacant.numbered_none (hstart : start.numbered? = none) (h : Vacant start acts) :
    (start.after acts).host.numbered? = none := by
  obtain ⟨earlier, waiting, rfl, hbare, hwaiting⟩ := h
  rw [Host.after_append]
  refine hwaiting.vacant ?_ (HostStage.environment_replay _ _)
  rcases hbare with rfl | ⟨before, b, rfl, hgives, hgift⟩
  · exact hstart
  · rw [Host.after_concat]
    exact ((start.after before).change b).vacant_of_gives hgives hgift

/-- The settings of a host's environment are those in force. -/
theorem load_after (start : Host) (acts : List HostAct) :
    (Layers.ofEnvironment (start.after acts).host.environment).load
      = settingsAfter start.environment acts := by
  rw [Host.after, HostStage.environment_replay]
  rfl

/-- **A cache that was given** does what a session does that begins with it. -/
theorem Tenure.Given.follows (h : Given start acts t) :
    (start.after acts).Follows t.number (t.stage start) := by
  obtain ⟨before, b, hearlier, -, hgift⟩ := h.given
  have hnumbered : (start.after t.earlier).host.numbered? = some (t.number, t.cache) := by
    rw [hearlier, Host.after_concat]
    exact ((start.after before).change b).numbered_of_gift hgift
  rw [h.split, Host.after_append]
  exact (HostStage.follows_numbered hnumbered).replay h.since

/-- **A cache that was built** is the newest when it is first fetched. -/
theorem Tenure.Built.fetch (hstart : start.numbered? = none) (h : Built start acts t) :
    (start.after t.earlier).host.fetch
      = .ok (t.number, t.cache, (start.after t.earlier).host.add t.cache) := by
  obtain ⟨s, hload, hcache⟩ := h.settings
  rw [h.number, hcache]
  exact Host.fetch_built (h.vacant.numbered_none hstart) ((load_after _ _).trans hload)

/-- **A cache that was built** does what a session does that begins with it. -/
theorem Tenure.Built.follows (hstart : start.numbered? = none) (h : Built start acts t) :
    (start.after acts).Follows t.number (t.stage start) := by
  obtain ⟨b, rest, hsince, huses⟩ := h.first
  have hgives := h.since
  rw [hsince] at hgives
  rw [h.split, Host.after_append, Tenure.stage, hsince]
  exact HostStage.follows_built (h.fetch hstart) rfl huses hgives

/-- **The current cache is what a session has made of it** since it was given or built. -/
theorem Tenure.numbered_eq (hstart : start.numbered? = none)
    (h : Given start acts t ∨ Built start acts t) :
    (start.after acts).host.numbered? = some (t.number, (t.stage start).session.cache) := by
  rcases h with hgiven | hbuilt
  · exact hgiven.follows.numbered
  · exact (hbuilt.follows hstart).numbered

end

/-! ## A cache that was built stays sound -/

namespace HostStage

/-- No act assigns the capacity or the time to live of a cache while it is the current one. -/
def Untouched (g : HostStage) (number : Nat) : List HostAct → Prop
  | [] => True
  | a :: rest =>
    ((g.act a).host.current = some number → a.Unassigned) ∧ (g.act a).Untouched number rest

/-- A cache whose settings can be compared, as can the capacities that its open blocks give
    back. -/
structure Sound (g : HostStage) (number : Nat) : Prop where
  cache : ∃ c, g.host.caches[number]? = some c ∧ c.Ready
  saved : ∀ p ∈ g.saved, p.1 = number → Knob.maxSize.Admits p.2

theorem untouched_of_unassigned {g : HostStage} {number : Nat} {acts : List HostAct}
    (h : ∀ a ∈ acts, a.Unassigned) : g.Untouched number acts := by
  induction acts generalizing g with
  | nil => trivial
  | cons a rest ih =>
    obtain ⟨ha, hrest⟩ := List.forall_mem_cons.mp h
    exact ⟨fun _ => ha, ih hrest⟩

theorem admissible_of_unassigned {u : Use} (h : (HostAct.use u).Unassigned) :
    (Act.use u).Admissible := by
  cases u with
  | assign knob v =>
    cases knob with
    | maxSize => exact absurd rfl (h v).1
    | ttl => exact absurd rfl (h v).2
    | counting => trivial
  | compile | get | put | remove | clear | resetStats | size | contains => trivial

section
variable {g g' : HostStage} {a : HostAct} {number : Nat}

/-- **Every act keeps a sound cache sound** that does not assign its settings. -/
theorem Change.sound (h : g.Change a g') (hg : g.Sound number)
    (ha : g'.host.current = some number → a.Unassigned) : g'.Sound number := by
  obtain ⟨⟨cache, hcache, hready⟩, hsaved⟩ := hg
  -- A cache that is fetched is this one, or leaves this one alone.
  have hfetched {i : Nat} {c : Cache} {entered : Host}
      (hfetch : g.host.fetch = .ok (i, c, entered)) :
      entered.caches[number]? = some cache ∧ entered.current = some i ∧
        (i = number → c = cache) := by
    have hkept := Host.fetch_keeps hfetch hcache
    obtain ⟨hcurrent, hfound⟩ := Host.current_fetch hfetch
    refine ⟨hkept, hcurrent, ?_⟩
    rintro rfl
    exact Option.some.inj (hfound.symm.trans hkept)
  cases h with
  | @used u i c entered hfetch =>
    obtain ⟨hkept, hcurrent, hsame⟩ := hfetched hfetch
    refine ⟨?_, hsaved⟩
    by_cases hi : i = number
    · subst hi
      obtain rfl := hsame rfl
      have hu := admissible_of_unassigned (ha hcurrent)
      exact ⟨_, Host.caches_update hkept _,
        (Session.effect (s := ⟨entered.clock, c⟩) hready u).ready hready hu⟩
    · exact ⟨cache, (List.getElem?_set_ne hi).trans hkept, hready⟩
  | @entered i c entered hfetch =>
    obtain ⟨hkept, -, hsame⟩ := hfetched hfetch
    by_cases hi : i = number
    · subst hi
      obtain rfl := hsame rfl
      exact ⟨⟨_, Host.caches_update hkept _, hready.assign rfl⟩,
        List.forall_mem_cons.mpr ⟨fun _ => hready .maxSize, hsaved⟩⟩
    · exact ⟨⟨cache, (List.getElem?_set_ne hi).trans hkept, hready⟩,
        List.forall_mem_cons.mpr ⟨fun h => absurd h hi, hsaved⟩⟩
  | @left i size saved hleft =>
    rw [hleft] at hsaved
    obtain ⟨hsize, hsaved⟩ := List.forall_mem_cons.mp hsaved
    refine ⟨?_, hsaved⟩
    have hgiven := g.host.caches_giveBack i number size
    rw [hcache, Option.map_some] at hgiven
    by_cases hi : i = number
    · rw [if_pos hi] at hgiven
      exact ⟨_, hgiven, hready.assign (hsize hi)⟩
    · rw [if_neg hi] at hgiven
      exact ⟨_, hgiven, hready⟩
  | fetched hfetch => exact ⟨⟨cache, (hfetched hfetch).1, hready⟩, hsaved⟩
  | gaveNew => exact ⟨⟨cache, Host.add_keeps hcache _, hready⟩, hsaved⟩
  | moved | refused | noBlock | environment | tookAway | gaveAgain | unbuilt | uncached =>
    exact ⟨⟨cache, hcache, hready⟩, hsaved⟩

theorem Sound.replay (hg : g.Sound number) {acts : List HostAct} (h : g.Untouched number acts) :
    (g.replay acts).Sound number := by
  induction acts generalizing g with
  | nil => exact hg
  | cons a rest ih => exact ih ((g.change a).sound hg h.1) h.2

/-- A new cache is sound if its settings can be compared, for no block of it is open. -/
theorem sound_add (hg : g.Nested) {cache : Cache} (hready : cache.Ready) :
    Sound { g with host := g.host.add cache } g.host.caches.length :=
  ⟨⟨cache, List.getElem?_concat_length, hready⟩,
    fun p hp heq => absurd (hg p hp) (Nat.not_lt.mpr (Nat.le_of_eq heq.symm))⟩

end

end HostStage

/-- **A cache that was built stays sound** as long as nobody assigns its settings, whatever has
    become the current one since. -/
theorem Tenure.Built.sound {start : Host} {acts later : List HostAct} {t : Tenure}
    (hstart : start.numbered? = none) (h : Tenure.Built start acts t) (hready : t.cache.Ready)
    (huntouched : (start.after t.earlier).Untouched t.number (t.since ++ later)) :
    (start.after (acts ++ later)).Sound t.number := by
  obtain ⟨b, rest, hsince, huses⟩ := h.first
  have hbegin := HostStage.sound_add (HostStage.nested_after start t.earlier) hready
  rw [← h.number] at hbegin
  have hact := HostStage.act_of_fetch huses (h.fetch hstart)
  rw [h.split, List.append_assoc, Host.after_append]
  rw [hsince, List.cons_append] at huntouched ⊢
  obtain ⟨hb, hrest⟩ := huntouched
  have hfirst := (HostStage.change _ b).sound hbegin (hact ▸ hb)
  rw [← hact] at hfirst
  exact hfirst.replay hrest

end Routing
