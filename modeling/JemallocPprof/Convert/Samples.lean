import JemallocPprof.Convert.Locations

/-!
# The samples

The loops of `to_pprof_proto` over frames, stacks and mappings, each with its
step and its run, and the conclusion: the profile returned says about every
stack what `Describes` lists (`toPprofProto_describes`).
-/

namespace JemallocPprof
set_option autoImplicit false
open Lib

variable {F : Type} [F64Cast F] {env : Env} {strings : List String} {mappings : List Mapping}
  {frames : List Frame} {b b' : Builder} {annoKey : String}

/-- The rebasing of a frame that returned. -/
theorem rebased_of_run {checks : Bool} {info : Option (Mapping × Nat)} {runtime address : UInt64}
    (run : fileRelativeAddr checks info runtime = .ok address) : address = rebased info runtime := by
  cases info with
  | none => exact (Except.ok.inj run).symm
  | some info =>
    obtain ⟨inMapping, sub, add⟩ := bind_ok.1 run
    obtain rfl := u64Sub_ok sub
    exact u64Add_ok add

/-- The tables after two more strings. -/
theorem Tracks.withStrings {more : List String} {t : StringTable} (h : Tracks env strings mappings frames b)
    (interned : t.Interned (strings ++ more)) :
    Tracks env (strings ++ more) mappings frames { b with strings := t } :=
  ⟨⟨interned, h.symbols.mapping.imp fun _ _ _ told => told.append, h.symbols.flags, h.symbols.functionIds,
    h.symbols.function.imp fun _ _ _ told => told.append⟩, h.locationIds, h.location⟩

/-- A sample after the frames `done` of its stack. -/
structure SampleSoFar (env : Env) (strings : List String) (mappings : List Mapping) (frames : List Frame)
    (annoKey : String) (anno : Option String) (value : List Int) (before : List Proto.Sample)
    (done : List UInt64) (state : Builder × Proto.Sample) : Prop where
  tables : ∃ more, Tracks env (strings ++ more) mappings (frames ++ done.map (frameOf mappings)) state.1 ∧
    LabelsMatch (strings ++ more) annoKey anno done.length state.2.label
  locationId : List.Forall₂
    (fun id f => HasId Frame.address (frames ++ done.map (frameOf mappings)) f.address id)
    state.2.locationId (done.map (frameOf mappings))
  value : state.2.value = value
  sample : state.1.sample = before

theorem LabelsMatch.append {more : List String} {anno : Option String} {depth : Nat}
    {labels : List Proto.Label} (h : LabelsMatch strings annoKey anno depth labels) :
    LabelsMatch (strings ++ more) annoKey anno depth labels :=
  ⟨h.count, fun label mem text e =>
    ⟨Reads.append (h.text label mem text e).1, Reads.append (h.text label mem text e).2⟩⟩

/-- Without annotation a frame adds no label, with one it adds one. -/
theorem LabelsMatch.bare {depth : Nat} {labels : List Proto.Label}
    (h : LabelsMatch strings annoKey none depth labels) : LabelsMatch strings annoKey none (depth + 1) labels :=
  ⟨h.count, h.text⟩

theorem LabelsMatch.snoc {text : String} {depth : Nat} {labels : List Proto.Label} {label : Proto.Label}
    (h : LabelsMatch strings annoKey (some text) depth labels) (key : Reads strings label.key annoKey)
    (str : Reads strings label.str text) :
    LabelsMatch strings annoKey (some text) (depth + 1) (labels ++ [label]) := by
  refine ⟨by simp [h.count], fun l mem text' same => ?_⟩
  rcases List.mem_append.1 mem with mem | mem
  · exact h.text l mem text' same
  · obtain rfl := List.mem_singleton.1 mem
    exact Option.some.inj same ▸ ⟨key, str⟩

/-- **One frame.** -/
theorem pushFrame_step {anno : Option String} {value : List Int} {before : List Proto.Sample}
    {done : List UInt64} {addr : UInt64} {state state' : Builder × Proto.Sample}
    (h : SampleSoFar env strings mappings frames annoKey anno value before done state)
    (run : Builder.pushFrame env mappings annoKey anno state addr = .ok state') :
    SampleSoFar env strings mappings frames annoKey anno value before (done ++ [addr]) state' := by
  obtain ⟨b, sample⟩ := state
  obtain ⟨⟨more, tracks, labels⟩, ids, value_eq, before_eq⟩ := h
  simp only at tracks labels ids value_eq before_eq
  obtain ⟨runtime, decrement, run₁⟩ := bind_ok.1 run
  obtain ⟨address, rebase, run₂⟩ := bind_ok.1 run₁
  obtain ⟨⟨id, b₁⟩, location, run₃⟩ := bind_ok.1 run₂
  obtain rfl := u64Sub_ok decrement
  obtain rfl := rebased_of_run rebase
  obtain ⟨more₁, tracks₁, hasId, kept⟩ := locationId_step (f := frameOf mappings addr) tracks rfl location
  have snoc : frames ++ (done ++ [addr]).map (frameOf mappings) =
      frames ++ done.map (frameOf mappings) ++ [frameOf mappings addr] := by simp
  have ids' : List.Forall₂
      (fun id f => HasId Frame.address (frames ++ (done ++ [addr]).map (frameOf mappings)) f.address id)
      (sample.locationId ++ [id]) ((done ++ [addr]).map (frameOf mappings)) := by
    rw [snoc, List.map_append, List.map_singleton]
    exact List.rel_append (ids.imp fun id f held => held.append) (.cons hasId .nil)
  have labels' : LabelsMatch (strings ++ more ++ more₁) annoKey anno done.length sample.label := labels.append
  cases anno with
  | none =>
    cases run₃
    refine ⟨⟨more ++ more₁, ?_, ?_⟩, ids', value_eq, kept.trans before_eq⟩
    · rw [snoc, ← List.append_assoc]
      exact tracks₁
    · rw [← List.append_assoc, List.length_append]
      exact labels'.bare
  | some text =>
    obtain ⟨⟨key, t₁⟩, insert₁, run₄⟩ := bind_ok.1 run₃
    obtain ⟨⟨str, t₂⟩, insert₂, run₅⟩ := bind_ok.1 run₄
    cases run₅
    obtain ⟨more₂, interned₂, reads₂, -⟩ := StringTable.insert_interned tracks₁.symbols.interned insert₁
    obtain ⟨more₃, interned₃, reads₃, -⟩ := StringTable.insert_interned interned₂ insert₂
    have tracks₃ := (tracks₁.withStrings interned₂).withStrings interned₃
    have labels₃ : LabelsMatch (strings ++ more ++ more₁ ++ more₂ ++ more₃) annoKey (some text)
        done.length sample.label := labels'.append.append
    refine ⟨⟨more ++ more₁ ++ more₂ ++ more₃, ?_, ?_⟩, ids', value_eq, kept.trans before_eq⟩
    · rw [snoc]
      simpa only [List.append_assoc] using tracks₃
    · simp only [← List.append_assoc, List.length_append]
      exact labels₃.snoc (Reads.append reads₂) reads₃

/-- The samples after the items `done`. -/
structure SamplesSoFar (env : Env) (strings : List String) (mappings : List Mapping) (annoKey : String)
    (done : List (WeightedStack F × Option String)) (b : Builder) : Prop where
  tables : ∃ more, Tracks env (strings ++ more) mappings (itemFrames mappings done) b ∧
    List.Forall₂ (SampleMatches mappings (itemFrames mappings done) (strings ++ more) annoKey) b.sample done

theorem SampleMatches.append {moreFrames : List Frame} {more : List String} {sample : Proto.Sample}
    {item : WeightedStack F × Option String} (h : SampleMatches mappings frames strings annoKey sample item) :
    SampleMatches mappings (frames ++ moreFrames) (strings ++ more) annoKey sample item :=
  ⟨h.value, h.locationId.imp fun _ _ held => held.append, h.label.append⟩

/-- **One stack.** -/
theorem pushSample_step {done : List (WeightedStack F × Option String)}
    {item : WeightedStack F × Option String} (h : SamplesSoFar env strings mappings annoKey done b)
    (run : Builder.pushSample env mappings annoKey b item = .ok b') :
    SamplesSoFar env strings mappings annoKey (done ++ [item]) b' := by
  obtain ⟨⟨more, tracks, samples⟩⟩ := h
  obtain ⟨stack, anno⟩ := item
  obtain ⟨value, cast, run⟩ := bind_ok.1 run
  rw [expect_ok] at cast
  obtain ⟨⟨b₁, sample⟩, loop, run⟩ := bind_ok.1 run
  cases run
  have start : SampleSoFar env (strings ++ more) mappings (itemFrames mappings done) annoKey anno [value]
      b.sample [] (b, ⟨[], [value], []⟩) := by
    refine ⟨⟨[], ?_, ⟨?_, fun label mem => ?_⟩⟩, .nil, rfl, rfl⟩
    · simpa using tracks
    · cases anno <;> rfl
    · cases mem
  obtain ⟨⟨more₁, tracks₁, labels⟩, ids, value_eq, before⟩ :=
    foldlM_run start (fun done addr rest s s' _ inv step => pushFrame_step inv step) loop
  simp only at tracks₁ labels ids value_eq before
  have snoc : itemFrames mappings (done ++ [(stack, anno)]) =
      itemFrames mappings done ++ stack.addrs.reverse.map (frameOf mappings) := by
    simp [itemFrames, framesOf]
  refine ⟨⟨more ++ more₁, ?_, ?_⟩⟩
  · rw [snoc, ← List.append_assoc]
    exact ⟨⟨tracks₁.symbols.interned, tracks₁.symbols.mapping, tracks₁.symbols.flags,
      tracks₁.symbols.functionIds, tracks₁.symbols.function⟩, tracks₁.locationIds, tracks₁.location⟩
  · rw [snoc, ← List.append_assoc, before]
    refine List.rel_append (samples.imp fun sample item told => told.append) (.cons ⟨?_, ids, ?_⟩ .nil)
    · exact ⟨value, cast, value_eq⟩
    · simpa using labels

/-- The mapping messages after the entries `done`. -/
structure MappingsSoFar (strings : List String) (done : List (Mapping × Nat)) (b : Builder) : Prop where
  tables : ∃ more, b.strings.Interned (strings ++ more) ∧
    Paired (MappingMatches (strings ++ more)) b.mapping (done.map Prod.fst)
  flags : ∀ (i : Nat) pm, b.mapping[i]? = some pm → pm.hasFunctions = false ∧ pm.hasFilenames = false ∧
    pm.hasLineNumbers = false ∧ pm.hasInlineFrames = false
  rest : b.location = [] ∧ b.function = [] ∧ b.sample = [] ∧ b.locationIds = ∅ ∧ b.functionIds = ∅

/-- **One mapping.** -/
theorem pushMapping_step {done : List (Mapping × Nat)} {entry : Mapping × Nat}
    (h : MappingsSoFar strings done b) (zero : Reads strings 0 "") (position : entry.2 = done.length + 1)
    (run : b.pushMapping entry = .ok b') : MappingsSoFar strings (done ++ [entry]) b' := by
  obtain ⟨⟨more, interned, mapping⟩, flags, rest⟩ := h
  obtain ⟨m, id⟩ := entry
  obtain ⟨⟨filename, t₁⟩, insert₁, run⟩ := bind_ok.1 run
  obtain ⟨⟨buildId, t₂⟩, insert₂, run⟩ := bind_ok.1 run
  cases run
  obtain ⟨more₁, interned₁, reads₁, -⟩ := StringTable.insert_interned interned insert₁
  obtain ⟨more₂, interned₂, reads₂⟩ : ∃ more₂, t₂.Interned (strings ++ more ++ more₁ ++ more₂) ∧
      Reads (strings ++ more ++ more₁ ++ more₂) buildId m.buildIdText := by
    cases e : m.buildId with
    | none =>
      rw [e] at insert₂
      cases insert₂
      refine ⟨[], by simpa using interned₁, ?_⟩
      simp only [Mapping.buildIdText, e, List.append_assoc]
      exact Reads.append zero
    | some build =>
      rw [e] at insert₂
      obtain ⟨more₂, interned₂, reads₂, -⟩ := StringTable.insert_interned interned₁ insert₂
      exact ⟨more₂, interned₂, by rw [Mapping.buildIdText, e]; exact reads₂⟩
  refine ⟨⟨more ++ more₁ ++ more₂, by simpa using interned₂, ?_⟩, ?_, rest⟩
  · rw [List.map_append, List.map_singleton]
    simp only [← List.append_assoc]
    refine (mapping.imp fun i pm m told => told.append.append).snoc ⟨?_, Reads.append reads₁, reads₂⟩
    simpa [mapping.length] using position
  · intro i pm there
    rcases Nat.lt_or_ge i b.mapping.length with lt | ge
    · rw [List.getElem?_append_left lt] at there
      exact flags i pm there
    · rw [List.getElem?_append_right ge] at there
      obtain rfl := List.mem_singleton.1 (List.mem_of_getElem? there)
      exact ⟨rfl, rfl, rfl, rfl⟩

/-- **All mappings**: their ids are their positions. -/
theorem pushMappings_run (start : MappingsSoFar strings [] b) (zero : Reads strings 0 "")
    (run : (mappings.zipIdx 1).foldlM Builder.pushMapping b = .ok b') :
    MappingsSoFar strings (mappings.zipIdx 1) b' := by
  refine foldlM_run start (fun done entry rest s s' split inv step => ?_) run
  refine pushMapping_step inv zero ?_ step
  have there : (mappings.zipIdx 1)[done.length]? = some entry := by rw [← split]; simp
  rw [List.getElem?_zipIdx] at there
  obtain ⟨m, -, rfl⟩ := Option.map_eq_some_iff.1 there
  exact Nat.add_comm 1 _

/-- With the mappings in place and no stack seen, the tables say nothing yet. -/
theorem MappingsSoFar.samples (h : MappingsSoFar strings (mappings.zipIdx 1) b) :
    ∃ more, SamplesSoFar (F := F) env (strings ++ more) mappings annoKey [] b := by
  obtain ⟨⟨more, interned, mapping⟩, flags, location, function, sample, locationIds, functionIds⟩ := h
  refine ⟨more, ⟨[], ⟨⟨by simpa using interned, ?_, ?_, ?_, ?_⟩, ?_, ?_⟩, ?_⟩⟩
  · simpa using mapping
  · intro i pm there
    obtain ⟨f₁, f₂, f₃, f₄⟩ := flags i pm there
    exact ⟨by simp [f₁, itemFrames, named, located], by simp [f₂, itemFrames, named, located],
      by simp [f₃, itemFrames, named, located], by simp [f₄, itemFrames, Inlined, located]⟩
  · intro name
    rw [functionIds]
    rfl
  · rw [function]
    exact .nil
  · intro a
    rw [locationIds]
    rfl
  · rw [location]
    exact .nil
  · rw [sample]
    exact .nil

/-- **The converter describes its input**: a profile returned is what
`Describes` says of the items the iterator yields. -/
theorem toPprofProto_describes {self : StackProfile F} {sampleType periodType : String × String}
    {annoKey : Option String} {p : Proto.Profile}
    (run : toPprofProto env self sampleType periodType annoKey = .ok p) :
    ∃ items, self.Annotated items ∧ Describes env self.mappings self.frames items sampleType periodType
      (annoKey.getD "annotation") p := by
  obtain ⟨⟨t, t₁⟩, insert₁, run⟩ := bind_ok.1 run
  obtain ⟨⟨u, t₂⟩, insert₂, run⟩ := bind_ok.1 run
  obtain ⟨⟨pt, t₃⟩, insert₃, run⟩ := bind_ok.1 run
  obtain ⟨⟨pu, t₄⟩, insert₄, run⟩ := bind_ok.1 run
  obtain ⟨nanos, -, run⟩ := bind_ok.1 run
  obtain ⟨b₁, mappingLoop, run⟩ := bind_ok.1 run
  obtain ⟨b₂, sampleLoop, run⟩ := bind_ok.1 run
  cases run
  obtain ⟨items, annotated⟩ := StackProfile.annotated_of_forEach sampleLoop
  rw [annotated.forEach_eq] at sampleLoop
  -- the four type strings
  obtain ⟨s₁, interned₁, reads₁, -⟩ := StringTable.insert_interned StringTable.new_interned insert₁
  obtain ⟨s₂, interned₂, reads₂, -⟩ := StringTable.insert_interned interned₁ insert₂
  obtain ⟨s₃, interned₃, reads₃, -⟩ := StringTable.insert_interned interned₂ insert₃
  obtain ⟨s₄, interned₄, reads₄, -⟩ := StringTable.insert_interned interned₃ insert₄
  -- the two loops
  have start : MappingsSoFar ([""] ++ s₁ ++ s₂ ++ s₃ ++ s₄) [] ⟨t₄, [], [], [], [], ∅, ∅⟩ :=
    ⟨⟨[], by simpa using interned₄, .nil⟩, fun i pm there => by simp at there, rfl, rfl, rfl, rfl, rfl⟩
  have zero : Reads ([""] ++ s₁ ++ s₂ ++ s₃ ++ s₄) 0 "" := by simp [Reads]
  obtain ⟨s₅, start⟩ : ∃ more, SamplesSoFar env ([""] ++ s₁ ++ s₂ ++ s₃ ++ s₄ ++ more) self.mappings
      (annoKey.getD "annotation") ([] : List (WeightedStack F × Option String)) b₁ :=
    (pushMappings_run start zero mappingLoop).samples
  obtain ⟨⟨s₆, tracks, samples⟩⟩ :=
    foldlM_run start (fun done item rest s s' _ inv step => pushSample_step inv step) sampleLoop
  rw [annotated.frames_eq] at tracks samples
  have finish := StringTable.finish_eq tracks.symbols.interned
  have nodup := tracks.symbols.interned.nodup
  refine ⟨items, annotated, ?_⟩
  constructor
  case nodup => simpa only [finish] using nodup
  all_goals simp only [finish]
  case empty => simp [Reads]
  case sampleType =>
    refine ⟨t, u, rfl, ?_, ?_⟩
    · simpa only [List.append_assoc] using
        (show Reads ([""] ++ s₁ ++ (s₂ ++ s₃ ++ s₄ ++ s₅ ++ s₆)) t sampleType.1 from Reads.append reads₁)
    · simpa only [List.append_assoc] using
        (show Reads ([""] ++ s₁ ++ s₂ ++ (s₃ ++ s₄ ++ s₅ ++ s₆)) u sampleType.2 from Reads.append reads₂)
  case periodType =>
    refine ⟨pt, pu, rfl, ?_, ?_⟩
    · simpa only [List.append_assoc] using
        (show Reads ([""] ++ s₁ ++ s₂ ++ s₃ ++ (s₄ ++ s₅ ++ s₆)) pt periodType.1 from Reads.append reads₃)
    · simpa only [List.append_assoc] using
        (show Reads ([""] ++ s₁ ++ s₂ ++ s₃ ++ s₄ ++ (s₅ ++ s₆)) pu periodType.2 from Reads.append reads₄)
  case mapping => exact tracks.symbols.mapping
  case flags => exact tracks.symbols.flags
  case function => exact tracks.symbols.function
  case location => exact tracks.location
  case sample => exact samples

end JemallocPprof
