/-
  LAYERING — which of many raw values a setting comes from.

  The file, the environment and the overrides are poured into one map, which gives a field its last
  value at its first place, and the map is read from its beginning.  That is a procedure; what it
  decides is said here for one field at a time.

  1. **The effective value** of a field (`Layers.effective?`) is its override, or else what the last
     key of the environment that names it says, or else the last such key of the file.
  2. **Assignments** (`Layers.assignments`) are all raw values with their fields in the order in
     which the layers are read, the replaced ones included.  The effective value of a field is its
     last assignment, and the order of the map is that of the first ones.
  3. **The crux** (`load_of_unreadable`): the first key of a map that has a property is the first
     that was bound at all.  So the value that is complained about is the effective value of the
     first field in order of appearance whose effective value cannot be read.
  4. **Shadowed values** are those that a later assignment replaces.  Putting another text in the
     place of one changes neither the fields in their order nor any effective value, and loading
     depends on nothing else.
-/
import Mathlib.Data.List.Induction
import Routing.Proofs.Bindings
import Routing.Settings.Load

namespace Routing

/-! ## Fields -/

namespace Field

theorem ofName?_eq_some_iff {name : Text} {f : Field} : ofName? name = some f ↔ name = f.name := by
  constructor
  · intro h
    rw [ofName?] at h
    have hname := List.find?_some h
    exact (of_decide_eq_true hname).symm
  · rintro rfl
    cases f <;> decide

theorem ofName?_eq_none_iff {name : Text} : ofName? name = none ↔ ∀ f : Field, name ≠ f.name := by
  simp only [← Option.not_isSome_iff_eq_none, Option.isSome_iff_exists, ofName?_eq_some_iff,
    not_exists, ne_eq]

/-- A key of the file or of the environment **names a field**: it is the lead, and then the name of
    the field in any case. -/
def NamedBy (f : Field) (lead key : Text) : Prop :=
  ∃ rest, key = lead ++ rest ∧ Text.lowered rest = f.name

theorem fieldOf?_eq_some_iff {lead key : Text} {f : Field} :
    Layers.fieldOf? lead key = some f ↔ f.NamedBy lead key := by
  rw [Layers.fieldOf?, Option.bind_eq_some_iff]
  refine exists_congr fun rest => ?_
  rw [List.isPrefixOf?_eq_some_iff_append_eq, ofName?_eq_some_iff, eq_comm]

instance (f : Field) (lead key : Text) : Decidable (f.NamedBy lead key) :=
  decidable_of_iff _ fieldOf?_eq_some_iff

/-- Only a text can be refused. -/
theorem read_eq_error {f : Field} {raw : Setting} {c : Complaint} (h : f.read raw = .error c) :
    ∃ t, raw = .text t ∧ c = .invalidValue f t := by
  cases raw with
  | text t =>
    refine ⟨t, rfl, ?_⟩
    rw [read] at h
    split at h
    · nomatch h
    · exact (Except.error.inj h).symm
  | _ => nomatch h

end Field

/-! ## Settings, field by field -/

namespace Settings

theorem get_set (s : Settings) (f g : Field) (v : Setting) :
    (s.set f v).get g = if g = f then v else s.get g := by
  cases f <;> cases g <;> rfl

theorem get_ofValues (values : List (Field × Setting)) (f : Field) :
    (ofValues values).get f = (values.reverse.lookup f).getD (default.get f) := by
  induction values using List.reverseRecOn with
  | nil => rfl
  | append_singleton values p ih =>
    have hstep : ofValues (values ++ [p]) = (ofValues values).set p.1 p.2 := List.foldl_concat ..
    rw [hstep, get_set, List.reverse_append, List.reverse_singleton, List.singleton_append,
      List.lookup_cons, ih]
    by_cases hf : f = p.1
    · rw [if_pos hf, beq_iff_eq.mpr hf]
      rfl
    · rw [if_neg hf, beq_eq_false_iff_ne.mpr hf]

theorem check_eq_ok {s s' : Settings} (h : s.check = .ok s') : s' = s := by
  unfold check at h
  split at h
  · nomatch h
  · cases httl : s.checkTtl with
    | error e => rw [httl] at h; nomatch h
    | ok _ => rw [httl] at h; exact (Except.ok.inj h).symm

end Settings

/-! ## Effective values -/

namespace Layers

/-- The text of the last key of a layer that names a field. -/
def lastText? (lead : Text) (f : Field) (layer : Assoc Text Text) : Option Text :=
  (layer.reverse.find? fun p => f.NamedBy lead p.1).map Prod.snd

/-- The **effective raw value of a field**: its override, or what the last key of the environment
    says that names it, or the last such key of the file. -/
def effective? (layers : Layers) (file : Assoc Text Text) (f : Field) : Option Setting :=
  ((Assoc.ofPairs layers.overrides).lookup f.name).or
    (((lastText? layers.lead f (Assoc.ofPairs layers.environment)).or
      (lastText? layers.lead f file)).map .text)

/-- The keys of the file and then those of the environment, with their texts. -/
def texts (layers : Layers) (file : Assoc Text Text) : List (Text × Text) :=
  file ++ Assoc.ofPairs layers.environment

/-- The values of a layer with the fields that its keys set. -/
def assigned {α : Type} (field? : Text → Option Field) (value : α → Setting)
    (layer : List (Text × α)) : List (Field × Setting) :=
  layer.filterMap fun p => (field? p.1).map (·, value p.2)

/-- **All raw values** with their fields, in the order in which they are read. -/
def assignments (layers : Layers) (file : Assoc Text Text) : List (Field × Setting) :=
  assigned (fieldOf? layers.lead) .text (layers.texts file) ++
    assigned Field.ofName? id (Assoc.ofPairs layers.overrides)

/-- The fields in order of appearance, each as often as it appears. -/
def mentions (layers : Layers) (file : Assoc Text Text) : List Field :=
  (layers.assignments file).map Prod.fst

/-- The effective value of a field, if there is one, can be read. -/
def Readable (layers : Layers) (file : Assoc Text Text) (f : Field) : Prop :=
  ∀ raw, layers.effective? file f = some raw → ∃ v, f.read raw = .ok v

/-- Settings with the effective value of each field, as it is read, and defaults elsewhere. -/
def Holds (layers : Layers) (file : Assoc Text Text) (s : Settings) : Prop :=
  ∀ f, match layers.effective? file f with
    | some raw => f.read raw = .ok (s.get f)
    | none => s.get f = Settings.default.get f

theorem nodup_keys_ofPairs {κ α : Type} [BEq κ] [LawfulBEq κ] (pairs : List (κ × α)) :
    (Assoc.ofPairs pairs).keys.Nodup :=
  Assoc.nodup_keys_putAll pairs List.nodup_nil

section
variable {α : Type} {field? : Text → Option Field}

theorem assigned_append (value : α → Setting) (layer layer' : List (Text × α)) :
    assigned field? value (layer ++ layer')
      = assigned field? value layer ++ assigned field? value layer' :=
  List.filterMap_append

theorem assigned_reverse (value : α → Setting) (layer : List (Text × α)) :
    (assigned field? value layer).reverse = assigned field? value layer.reverse :=
  List.filterMap_reverse.symm

/-- The value of a field in a layer is that of the first key that sets it. -/
theorem lookup_assigned (value : α → Setting) {f : Field} {sets : Text → Prop} [DecidablePred sets]
    (hsets : ∀ key, field? key = some f ↔ sets key) (layer : List (Text × α)) :
    (assigned field? value layer).lookup f
      = (layer.find? fun p => sets p.1).map fun p => value p.2 := by
  induction layer with
  | nil => rfl
  | cons p rest ih =>
    rw [assigned] at ih
    rw [assigned, List.filterMap_cons, List.find?_cons]
    by_cases hf : sets p.1
    · rw [(hsets p.1).mpr hf, decide_eq_true hf]
      exact List.lookup_cons_self
    · rw [decide_eq_false hf]
      cases hother : field? p.1 with
      | none => exact ih
      | some g =>
        have hne : (f == g) = false := beq_eq_false_iff_ne.mpr fun heq =>
          hf ((hsets p.1).mp (heq ▸ hother))
        show ((g, value p.2) :: _).lookup f = _
        rw [List.lookup_cons, hne]
        exact ih

/-- A key of a layer assigns to the field that it sets. -/
theorem mem_assigned (value : α → Setting) {f : Field} {layer : List (Text × α)} {p : Text × α}
    (hp : p ∈ layer) (hf : field? p.1 = some f) :
    f ∈ (assigned field? value layer).map Prod.fst := by
  refine List.mem_map.mpr ⟨(f, value p.2), List.mem_filterMap.mpr ⟨p, hp, ?_⟩, rfl⟩
  rw [hf]
  rfl

end

theorem addLayer_eq (lead : Text) (raw : Assoc Field Setting) (layer : Assoc Text Text) :
    addLayer lead raw layer = Assoc.putAll (assigned (fieldOf? lead) .text layer) raw := by
  induction layer generalizing raw with
  | nil => rfl
  | cons p rest ih =>
    rw [assigned, List.filterMap_cons]
    cases hf : fieldOf? lead p.1 with
    | none =>
      have hstep : addLayer lead raw (p :: rest) = addLayer lead raw rest := by
        rw [addLayer, List.foldl_cons, hf]
        rfl
      rw [hstep]
      exact ih raw
    | some f =>
      have hstep : addLayer lead raw (p :: rest) = addLayer lead (raw.put f (.text p.2)) rest := by
        rw [addLayer, List.foldl_cons, hf]
        rfl
      rw [hstep]
      exact ih _

/-- The raw values of all layers are the map of their assignments. -/
theorem addOverrides_eq (layers : Layers) (file : Assoc Text Text) :
    addOverrides (addLayer layers.lead (addLayer layers.lead [] file)
        (Assoc.ofPairs layers.environment)) (Assoc.ofPairs layers.overrides)
      = Assoc.ofPairs (layers.assignments file) := by
  show _ = Assoc.putAll (layers.assignments file) []
  rw [assignments, texts, assigned_append, Assoc.putAll_append, Assoc.putAll_append, addOverrides,
    addLayer_eq, addLayer_eq]
  rfl

/-- **The effective value of a field is its last assignment.** -/
theorem effective?_eq (layers : Layers) (file : Assoc Text Text) (f : Field) :
    layers.effective? file f = (layers.assignments file).reverse.lookup f := by
  have htexts (layer : Assoc Text Text) :
      (assigned (fieldOf? layers.lead) .text layer).reverse.lookup f
        = (lastText? layers.lead f layer).map .text := by
    rw [assigned_reverse, lookup_assigned _ fun _ => Field.fieldOf?_eq_some_iff, lastText?,
      Option.map_map]
    rfl
  have hoverrides : (assigned Field.ofName? id (Assoc.ofPairs layers.overrides)).reverse.lookup f
      = (Assoc.ofPairs layers.overrides).lookup f.name := by
    rw [assigned_reverse, lookup_assigned _ fun _ => Field.ofName?_eq_some_iff,
      ← Assoc.lookup_reverse (nodup_keys_ofPairs _), Assoc.lookup_eq_find?]
    rfl
  rw [assignments, texts, assigned_append, List.reverse_append, List.reverse_append,
    List.lookup_append, List.lookup_append, hoverrides, htexts, htexts, effective?, Option.map_or]

theorem lookup_raw (layers : Layers) (file : Assoc Text Text) (f : Field) :
    (Assoc.ofPairs (layers.assignments file)).lookup f = layers.effective? file f := by
  rw [Assoc.ofPairs, Assoc.lookup_putAll, effective?_eq]
  exact Option.or_none

/-! ## Reading -/

/-- The first value that cannot be read is complained about. -/
theorem readAll_eq_error {before after : List (Field × Setting)} {f : Field} {raw : Setting}
    {c : Complaint} (hbefore : ∀ p ∈ before, ∃ v, p.1.read p.2 = .ok v)
    (hf : f.read raw = .error c) : readAll (before ++ (f, raw) :: after) = .error c := by
  induction before with
  | nil => rw [List.nil_append, readAll, hf]
  | cons p rest ih =>
    rw [List.forall_mem_cons] at hbefore
    obtain ⟨v, hv⟩ := hbefore.1
    rw [List.cons_append, readAll, hv]
    show (readAll _).map _ = _
    rw [ih hbefore.2]
    rfl

/-- If all values can be read, reading gives each field its value. -/
theorem readAll_eq_ok {raw : List (Field × Setting)}
    (hraw : ∀ p ∈ raw, ∃ v, p.1.read p.2 = .ok v) :
    ∃ values, readAll raw = .ok values ∧
      List.Forall₂ (fun p q => p.1 = q.1 ∧ p.1.read p.2 = .ok q.2) raw values := by
  induction raw with
  | nil => exact ⟨[], rfl, .nil⟩
  | cons p rest ih =>
    rw [List.forall_mem_cons] at hraw
    obtain ⟨v, hv⟩ := hraw.1
    obtain ⟨values, hvalues, hall⟩ := ih hraw.2
    refine ⟨(p.1, v) :: values, ?_, .cons ⟨rfl, hv⟩ hall⟩
    rw [readAll, hv]
    show (readAll rest).map _ = _
    rw [hvalues]
    rfl

/-- A field that has been read has the value that its raw one stands for, and no other one has. -/
theorem lookup_of_read {raw values : List (Field × Setting)}
    (h : List.Forall₂ (fun p q => p.1 = q.1 ∧ p.1.read p.2 = .ok q.2) raw values) (f : Field) :
    match raw.lookup f with
    | some r => ∃ v, values.lookup f = some v ∧ f.read r = .ok v
    | none => values.lookup f = none := by
  induction h with
  | nil => rfl
  | cons hpair _ ih =>
    rename_i p q rest rest' _
    obtain ⟨hfield, hread⟩ := hpair
    rw [List.lookup_cons, List.lookup_cons, ← hfield]
    by_cases hf : f = p.1
    · rw [beq_iff_eq.mpr hf, hf]
      exact ⟨q.2, rfl, hread⟩
    · rw [beq_eq_false_iff_ne.mpr hf]
      exact ih

/-- **What has been read are the effective values**, and defaults elsewhere. -/
theorem holds_of_read {layers : Layers} {file : Assoc Text Text}
    {values : List (Field × Setting)}
    (h : List.Forall₂ (fun p q => p.1 = q.1 ∧ p.1.read p.2 = .ok q.2)
      (Assoc.ofPairs (layers.assignments file)) values) :
    layers.Holds file (Settings.ofValues values) := by
  have hkeys : Assoc.keys values = (Assoc.ofPairs (layers.assignments file)).keys := by
    rw [Assoc.keys, Assoc.keys, ← List.forall₂_eq_eq_eq, List.forall₂_map_left_iff,
      List.forall₂_map_right_iff]
    exact h.flip.imp fun _ _ hpair => hpair.1.symm
  have hnodup : (Assoc.keys values).Nodup := hkeys ▸ nodup_keys_ofPairs _
  intro f
  have hread := lookup_of_read h f
  rw [lookup_raw] at hread
  rw [Settings.get_ofValues, Assoc.lookup_reverse hnodup]
  cases heffective : layers.effective? file f with
  | some raw =>
    rw [heffective] at hread
    obtain ⟨v, hv, hraw⟩ := hread
    rw [hv]
    exact hraw
  | none =>
    rw [heffective] at hread
    rw [hread]
    rfl

/-! ## Loading -/

/-- An override whose key **names no field**. -/
def Unknown (layers : Layers) (key : Text) : Prop :=
  key ∈ layers.overrides.map Prod.fst ∧ ∀ f : Field, key ≠ f.name

theorem mem_unknownKeys {layers : Layers} {key : Text} :
    key ∈ unknownKeys (Assoc.ofPairs layers.overrides) ↔ layers.Unknown key := by
  rw [unknownKeys, List.mem_mergeSort, List.mem_filter, Option.isNone_iff_eq_none,
    Field.ofName?_eq_none_iff, Assoc.ofPairs, Assoc.mem_keys_putAll]
  exact and_congr_left fun _ => or_iff_right List.not_mem_nil

section
variable {layers : Layers} {file : Assoc Text Text}

theorem load_of_unknown (hfile : layers.fileEntries = .ok file) {key : Text}
    (hkey : layers.Unknown key) :
    layers.load
      = .error (.refused (.unknownKeys (unknownKeys (Assoc.ofPairs layers.overrides)))) := by
  have hmem := mem_unknownKeys.mpr hkey
  rw [load, hfile]
  dsimp only
  cases hkeys : unknownKeys (Assoc.ofPairs layers.overrides) with
  | nil =>
    rw [hkeys] at hmem
    exact absurd hmem List.not_mem_nil
  | cons first rest => rfl

theorem unknownKeys_eq_nil (hknown : ∀ key, ¬ layers.Unknown key) :
    unknownKeys (Assoc.ofPairs layers.overrides) = [] :=
  List.eq_nil_iff_forall_not_mem.mpr fun key hkey => hknown key (mem_unknownKeys.mp hkey)

/-- If all overrides name fields, the map of all assignments is read, and what it gives is
    checked. -/
theorem load_of_known (hfile : layers.fileEntries = .ok file)
    (hknown : ∀ key, ¬ layers.Unknown key) :
    (∀ values, readAll (Assoc.ofPairs (layers.assignments file)) = .ok values →
      layers.load = (Settings.ofValues values).check) ∧
    ∀ c, readAll (Assoc.ofPairs (layers.assignments file)) = .error c →
      layers.load = .error (.refused c) := by
  rw [load, hfile, ← addOverrides_eq]
  dsimp only
  rw [unknownKeys_eq_nil hknown]
  dsimp only
  refine ⟨fun values hvalues => ?_, fun c hc => ?_⟩
  · rw [hvalues]
  · rw [hc]

/-- What stands in the map of a field is its effective value. -/
theorem effective?_of_mem {p : Field × Setting}
    (hp : p ∈ Assoc.ofPairs (layers.assignments file)) :
    layers.effective? file p.1 = some p.2 := by
  rw [← lookup_raw]
  exact Assoc.lookup_of_mem (nodup_keys_ofPairs _) hp

theorem load_of_readable (hfile : layers.fileEntries = .ok file)
    (hknown : ∀ key, ¬ layers.Unknown key) (hread : ∀ f, layers.Readable file f) :
    ∃ s, layers.Holds file s ∧ layers.load = s.check := by
  obtain ⟨values, hvalues, hall⟩ :=
    readAll_eq_ok fun p hp => hread p.1 p.2 (effective?_of_mem hp)
  have hload := (load_of_known hfile hknown).1 values hvalues
  exact ⟨Settings.ofValues values, holds_of_read hall, hload⟩

/-- Whether a field has an effective value that cannot be read. -/
def unreadable (layers : Layers) (file : Assoc Text Text) (f : Field) : Bool :=
  (layers.effective? file f).any fun raw => !(f.read raw).toBool

theorem unreadable_eq_true_iff {f : Field} :
    layers.unreadable file f = true ↔
      ∃ raw, layers.effective? file f = some (.text raw) ∧
        f.read (.text raw) = .error (.invalidValue f raw) := by
  rw [unreadable, Option.any_eq_true]
  constructor
  · rintro ⟨raw, heffective, hbad⟩
    cases hread : f.read raw with
    | ok v =>
      rw [hread] at hbad
      nomatch hbad
    | error c =>
      obtain ⟨t, rfl, rfl⟩ := Field.read_eq_error hread
      exact ⟨t, heffective, hread⟩
  · rintro ⟨t, heffective, hread⟩
    refine ⟨.text t, heffective, ?_⟩
    rw [hread]
    rfl

theorem unreadable_eq_false_iff {f : Field} :
    layers.unreadable file f = false ↔ layers.Readable file f := by
  rw [← Bool.not_eq_true, unreadable_eq_true_iff]
  constructor
  · intro hno raw heffective
    cases hread : f.read raw with
    | ok v => exact ⟨v, rfl⟩
    | error c =>
      obtain ⟨t, rfl, rfl⟩ := Field.read_eq_error hread
      exact absurd ⟨t, heffective, hread⟩ hno
  · rintro hreadable ⟨t, heffective, hread⟩
    obtain ⟨v, hv⟩ := hreadable _ heffective
    nomatch hread.symm.trans hv

/-- **The first field whose effective value cannot be read** is complained about. -/
theorem load_of_unreadable (hfile : layers.fileEntries = .ok file)
    (hknown : ∀ key, ¬ layers.Unknown key) (hbad : ∃ f, ¬ layers.Readable file f) :
    ∃ before f after raw, layers.mentions file = before ++ f :: after ∧
      (∀ g ∈ before, layers.Readable file g) ∧ ¬ layers.Readable file f ∧
      layers.effective? file f = some (.text raw) ∧
      layers.load = .error (.refused (.invalidValue f raw)) := by
  obtain ⟨f₀, hf₀⟩ := hbad
  rw [← unreadable_eq_false_iff, Bool.not_eq_false] at hf₀
  -- The first such field in order of appearance is the first such key of the map.
  have hsame := Assoc.find?_keys_putAll (layers.unreadable file) (layers.assignments file) []
  have hmentioned : f₀ ∈ layers.mentions file := by
    obtain ⟨raw, heffective, -⟩ := unreadable_eq_true_iff.mp hf₀
    rw [effective?_eq] at heffective
    exact List.mem_map_of_mem (List.mem_reverse.mp (Assoc.mem_of_lookup heffective))
  obtain ⟨f, hfirst⟩ : ∃ f, (layers.mentions file).find? (layers.unreadable file) = some f :=
    Option.isSome_iff_exists.mp (List.find?_isSome.mpr ⟨f₀, hmentioned, hf₀⟩)
  have hkey : (Assoc.ofPairs (layers.assignments file)).keys.find? (layers.unreadable file)
      = some f := hsame.trans hfirst
  obtain ⟨hf, before, after, hmentions, hbefore⟩ := List.find?_eq_some_iff_append.mp hfirst
  obtain ⟨raw, heffective, hread⟩ := unreadable_eq_true_iff.mp hf
  have hunread : ¬ layers.Readable file f := by
    rw [← unreadable_eq_false_iff, Bool.not_eq_false]
    exact hf
  refine ⟨before, f, after, raw, hmentions, ?_, hunread, heffective, ?_⟩
  · intro g hg
    rw [← unreadable_eq_false_iff]
    simpa using hbefore g hg
  · -- All that stands before it in the map can be read.
    obtain ⟨-, keys, keys', hsplit, hgood⟩ := List.find?_eq_some_iff_append.mp hkey
    obtain ⟨front, back, hmap, rfl, hback⟩ := List.map_eq_append_iff.mp hsplit
    obtain ⟨p, rest, rfl, rfl, -⟩ := List.map_eq_cons_iff.mp hback
    have hmem : ∀ q ∈ front ++ p :: rest, layers.effective? file q.1 = some q.2 := by
      intro q hq
      exact effective?_of_mem (hmap ▸ hq)
    have hraw : p.2 = .text raw := Option.some.inj
      ((hmem p (List.mem_append_right _ List.mem_cons_self)).symm.trans heffective)
    refine (load_of_known hfile hknown).2 _ ?_
    rw [hmap]
    have hbad : p.1.read p.2 = .error (.invalidValue p.1 raw) := hraw ▸ hread
    refine readAll_eq_error ?_ hbad
    intro q hq
    have hgoodq := hgood q.1 (List.mem_map_of_mem hq)
    rw [Bool.not_eq_true'] at hgoodq
    exact unreadable_eq_false_iff.mp hgoodq _ (hmem q (List.mem_append_left _ hq))

end

/-! ## Shadowed values -/

/-- Other layers **differ in one shadowed text**: in that of a key whose field, if it names one, has
    an override or is named by a later key. -/
structure DiffersShadowed (layers layers' : Layers) (file file' : Assoc Text Text) : Prop where
  lead : layers'.lead = layers.lead
  overrides : layers'.overrides = layers.overrides
  text : ∃ before key old new after, layers.texts file = before ++ (key, old) :: after ∧
    layers'.texts file' = before ++ (key, new) :: after ∧
    ∀ f : Field, f.NamedBy layers.lead key →
      f.name ∈ layers.overrides.map Prod.fst ∨ ∃ p ∈ after, f.NamedBy layers.lead p.1

theorem assignments_of_texts {layers : Layers} {file : Assoc Text Text}
    {before after : List (Text × Text)} {key t : Text}
    (h : layers.texts file = before ++ (key, t) :: after) :
    layers.assignments file
      = assigned (fieldOf? layers.lead) .text before ++
        (((fieldOf? layers.lead key).map (·, .text t)).toList ++
          (assigned (fieldOf? layers.lead) .text after ++
            assigned Field.ofName? id (Assoc.ofPairs layers.overrides))) := by
  rw [assignments, h, assigned_append, List.append_assoc, assigned, assigned, assigned]
  congr 1
  cases hfield : fieldOf? layers.lead key with
  | none =>
    rw [List.filterMap_cons_none (by rw [hfield]; rfl)]
    rfl
  | some f =>
    rw [List.filterMap_cons_some (by rw [hfield]; rfl)]
    rfl

/-- **A shadowed text changes nothing in the map** of all assignments. -/
theorem DiffersShadowed.ofPairs_eq {layers layers' : Layers} {file file' : Assoc Text Text}
    (h : layers.DiffersShadowed layers' file file') :
    Assoc.ofPairs (layers'.assignments file') = Assoc.ofPairs (layers.assignments file) := by
  obtain ⟨before, key, old, new, after, hold, hnew, hshadow⟩ := h.text
  rw [assignments_of_texts hold, assignments_of_texts hnew, h.lead, h.overrides]
  cases hfield : fieldOf? layers.lead key with
  | none =>
    -- A key that names no field assigns nothing.
    rfl
  | some k =>
    have hlater : k ∈ (assigned (fieldOf? layers.lead) .text after ++
        assigned Field.ofName? id (Assoc.ofPairs layers.overrides)).map Prod.fst := by
      rw [List.map_append]
      rcases hshadow k (Field.fieldOf?_eq_some_iff.mp hfield) with hoverride | ⟨p, hp, hnamed⟩
      · have hkey : k.name ∈ (Assoc.ofPairs layers.overrides).keys :=
          (Assoc.mem_keys_putAll layers.overrides [] _).mpr (.inr hoverride)
        obtain ⟨p, hp, hname⟩ := List.mem_map.mp hkey
        exact List.mem_append_right _ (mem_assigned id hp (Field.ofName?_eq_some_iff.mpr hname))
      · exact List.mem_append_left _ (mem_assigned _ hp (Field.fieldOf?_eq_some_iff.mpr hnamed))
    exact Assoc.ofPairs_replaced _ _ hlater

theorem load_of_shadowed {layers layers' : Layers} {file file' : Assoc Text Text}
    (hfile : layers.fileEntries = .ok file) (hfile' : layers'.fileEntries = .ok file')
    (h : layers.DiffersShadowed layers' file file') : layers'.load = layers.load := by
  have hunknown : ∀ key, layers'.Unknown key ↔ layers.Unknown key := by
    intro key
    rw [Unknown, h.overrides, Unknown]
  by_cases hkey : ∃ key, layers.Unknown key
  · obtain ⟨key, hkey⟩ := hkey
    rw [load_of_unknown hfile hkey, load_of_unknown hfile' ((hunknown key).mpr hkey), h.overrides]
  · have hknown : ∀ key, ¬ layers.Unknown key := not_exists.mp hkey
    have hload := load_of_known hfile hknown
    have hload' := load_of_known hfile' fun key hkey => hknown key ((hunknown key).mp hkey)
    rw [h.ofPairs_eq] at hload'
    cases hread : readAll (Assoc.ofPairs (layers.assignments file)) with
    | ok values => rw [hload.1 values hread, hload'.1 values hread]
    | error c => rw [hload.2 c hread, hload'.2 c hread]

/-! ## The layers as a whole -/

/-- **Layers are resolved field by field, and shadowed values do not matter.**  Take any layers
    whose file, if there is one, can be decoded.  An override that names no field is refused,
    whatever else the layers hold.  Otherwise settings that are loaded hold the effective value of
    each field, as it is read, and the default where there is none; if all effective values can be
    read, such settings are checked; and if not, the first field is refused, in order of appearance,
    whose effective value cannot be read.  Layers that differ in one shadowed text give the same
    settings, or the same refusal. -/
theorem load_layered (layers : Layers) (file : Assoc Text Text)
    (hfile : layers.fileEntries = .ok file) :
    ((∃ key, layers.Unknown key) → ∃ keys, (∀ key, key ∈ keys ↔ layers.Unknown key) ∧
      layers.load = .error (.refused (.unknownKeys keys))) ∧
    ((∀ key, ¬ layers.Unknown key) →
      (∀ s, layers.load = .ok s → layers.Holds file s) ∧
      ((∀ f, layers.Readable file f) → ∃ s, layers.Holds file s ∧ layers.load = s.check) ∧
      ((∃ f, ¬ layers.Readable file f) →
        ∃ before f after raw, layers.mentions file = before ++ f :: after ∧
          (∀ g ∈ before, layers.Readable file g) ∧ ¬ layers.Readable file f ∧
          layers.effective? file f = some (.text raw) ∧
          layers.load = .error (.refused (.invalidValue f raw)))) ∧
    ∀ layers' file', layers'.fileEntries = .ok file' → layers.DiffersShadowed layers' file file' →
      layers'.load = layers.load := by
  refine ⟨?_, fun hknown => ⟨?_, load_of_readable hfile hknown, load_of_unreadable hfile hknown⟩,
    fun layers' file' hfile' => load_of_shadowed hfile hfile'⟩
  · rintro ⟨key, hkey⟩
    exact ⟨_, fun key => mem_unknownKeys, load_of_unknown hfile hkey⟩
  · intro s hs
    by_cases hbad : ∃ f, ¬ layers.Readable file f
    · obtain ⟨_, _, _, _, -, -, -, -, hload⟩ := load_of_unreadable hfile hknown hbad
      nomatch hs.symm.trans hload
    · simp only [not_exists, not_not] at hbad
      obtain ⟨s', hholds, hload⟩ := load_of_readable hfile hknown hbad
      rw [Settings.check_eq_ok (hload.symm.trans hs)]
      exact hholds

/-- A size that cannot be read stands over one that can, and a time to live that cannot be read
    stands under an override: the size is refused, whatever stands under it. -/
theorem load_layered_shadowed :
    let layers (t : Text) : Layers :=
      ⟨"P_".toList, some "P_CACHE_TTL=5".toUTF8,
        [("P_CACHE_size".toList, t), ("P_CACHE_SIZE".toList, "x".toList),
          ("P_CACHE_TTL".toList, "soon".toList)], [("cache_ttl".toList, .null)]⟩
    let file := [("P_CACHE_TTL".toList, "5".toList)]
    (layers "7".toList).fileEntries = .ok file ∧
      (layers "7".toList).effective? file .size = some (.text "x".toList) ∧
      (layers "7".toList).effective? file .ttl = some .null ∧
      (layers "7".toList).load = .error (.refused (.invalidValue .size "x".toList)) ∧
      ∀ t, (layers t).load = (layers "7".toList).load := by
  intro layers file
  have hfile (t : Text) : (layers t).fileEntries = .ok file := by
    have hdecoded : EnvFile.decode? "P_CACHE_TTL=5".toUTF8 = some "P_CACHE_TTL=5".toList := by
      decide +kernel
    rw [fileEntries]
    dsimp only [layers]
    rw [hdecoded]
    rfl
  have hsize : (layers "7".toList).effective? file .size = some (.text "x".toList) := rfl
  have hknown : ∀ key, ¬ (layers "7".toList).Unknown key := by
    rintro key ⟨hkey, hno⟩
    exact hno .ttl (List.mem_singleton.mp hkey)
  obtain ⟨-, hload, hshadowed⟩ := load_layered (layers "7".toList) file (hfile _)
  have hbad : ¬ (layers "7".toList).Readable file .size := by
    intro hreadable
    obtain ⟨v, hv⟩ := hreadable _ hsize
    have hrefused : Field.size.read (.text "x".toList) = .error (.invalidValue .size "x".toList) :=
      rfl
    nomatch hrefused.symm.trans hv
  refine ⟨hfile _, hsize, rfl, ?_, fun t => hshadowed (layers t) file (hfile t) ?_⟩
  · obtain ⟨-, f, -, raw, -, -, -, heffective, hrefused⟩ := (hload hknown).2.2 ⟨.size, hbad⟩
    cases f with
    | size =>
      rw [hrefused, ← Setting.text.inj (Option.some.inj (hsize.symm.trans heffective))]
    | enabled | ttl | stats => nomatch heffective
  · refine ⟨rfl, rfl, _, _, _, t, _, rfl, rfl, fun f hf => .inr ⟨_, List.mem_cons_self, ?_⟩⟩
    have hnamed : fieldOf? "P_".toList "P_CACHE_size".toList = some .size := rfl
    rw [← Option.some.inj (hnamed.symm.trans (Field.fieldOf?_eq_some_iff.mpr hf))]
    exact Field.fieldOf?_eq_some_iff.mp rfl

end Layers

end Routing
