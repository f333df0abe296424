import JemallocPprof.Convert.Samples
import Mathlib.Data.List.Dedup

/-!
# When the conversion returns

`to_pprof_proto` stops at a weight that is no i64 and, in a build with overflow
checks, at a return address whose arithmetic leaves u64. `toPprofProto_returns`
says that nothing else stops it while the clock and the number of strings stay
inside an i64.
-/

namespace JemallocPprof
set_option autoImplicit false
open Lib

/-- The rebasing of a return address's call stays in u64. -/
def RebaseFits (mappings : List Mapping) (addr : UInt64) : Prop :=
  ∀ m idx, mappingInfo mappings (addr - 1) = some (m, idx) →
    (addr - 1 - m.memoryStart).toNat + m.memoryOffset.toNat < 2 ^ 64

instance (mappings : List Mapping) (addr : UInt64) : Decidable (RebaseFits mappings addr) :=
  decidable_of_iff (∀ info ∈ mappingInfo mappings (addr - 1),
    (addr - 1 - info.1.memoryStart).toNat + info.1.memoryOffset.toNat < 2 ^ 64)
    ⟨fun all m idx found => all (m, idx) found, fun all info found => all info.1 info.2 found⟩

/-- The decrement of a return address and its rebasing stay in u64. -/
structure FrameFits (mappings : List Mapping) (addr : UInt64) : Prop where
  decrement : addr ≠ 0
  rebase : RebaseFits mappings addr

/-- The weight of a stack is an i64 once truncated, and its addresses fit when
somebody checks. -/
structure Converts {F : Type} [F64Cast F] (checks : Bool) (mappings : List Mapping)
    (stack : WeightedStack F) : Prop where
  weight : ∃ v, i64TryCastFrom (F64Cast.trunc stack.weight) = some v
  frames : checks = true → ∀ addr ∈ stack.addrs, FrameFits mappings addr

/-- The strings a mapping adds. -/
def Mapping.strings (mapping : Mapping) : List String :=
  [fromUtf8Lossy mapping.pathname, mapping.buildIdText]

/-- The strings a symbol adds. -/
def Symbol.strings (symbol : Symbol) : List String :=
  match symbol.name with
  | some name => [name.demangled, fromUtf8Lossy name.bytes, (symbol.filename.map fromUtf8Lossy).getD ""]
  | none => []

/-- The strings a conversion can intern. -/
def StackProfile.strings {F : Type} (env : Env) (self : StackProfile F)
    (sampleType periodType : String × String) (annoKey : String) : List String :=
  ["", sampleType.1, sampleType.2, periodType.1, periodType.2, annoKey] ++ self.annotations ++
  self.mappings.flatMap Mapping.strings ++
  self.stacks.flatMap fun entry => entry.1.addrs.flatMap fun addr =>
    (env.resolve (addr - 1)).flatMap Symbol.strings

/-- An i64 counts the distinct strings, as it does for any table in memory. -/
def StringsFit {F : Type} (env : Env) (self : StackProfile F) (sampleType periodType : String × String)
    (annoKey : Option String) : Prop :=
  (self.strings env sampleType periodType (annoKey.getD "annotation")).dedup.length ≤ 2 ^ 63

section Strings

/-- The table holds only strings of `S`. -/
def Within (S : List String) (t : StringTable) : Prop := ∃ strings, t.Interned strings ∧ strings ⊆ S

variable {S : List String} {t : StringTable} {s : String}

/-- A table within few strings takes any of them. -/
theorem Within.insert (h : Within S t) (fits : S.dedup.length ≤ 2 ^ 63) (mem : s ∈ S) :
    ∃ i t', t.insert s = .ok (i, t') ∧ Within S t' := by
  obtain ⟨strings, interned, sub⟩ := h
  have room : s ∈ strings ∨ strings.length < 2 ^ 63 := by
    by_cases old : s ∈ strings
    · exact .inl old
    · right
      have nodup : (s :: strings).Nodup := List.nodup_cons.2 ⟨old, interned.nodup⟩
      have below : s :: strings ⊆ S.dedup := fun x hx =>
        List.mem_dedup.2 ((List.mem_cons.1 hx).elim (· ▸ mem) (sub ·))
      have count : strings.length + 1 ≤ S.dedup.length := (List.subperm_of_subset nodup below).length_le
      omega
  obtain ⟨i, t', run⟩ := StringTable.insert_returns interned room
  obtain ⟨more, interned', -, added⟩ := StringTable.insert_interned interned run
  refine ⟨i, t', run, strings ++ more, interned', ?_⟩
  rcases added with rfl | ⟨rfl, -⟩
  · simpa using sub
  · simpa using ⟨sub, mem⟩

end Strings

section Steps
variable {F : Type} {env : Env} {mappings : List Mapping} {annoKey : String}
  {S : List String} {b : Builder}

theorem functionId_returns {mapping : Option Nat} {symbol : Symbol} {symbolName : SymbolName}
    (within : Within S b.strings) (fits : S.dedup.length ≤ 2 ^ 63) (name : symbol.name = some symbolName)
    (known : symbol.strings ⊆ S) (lineno : Nat) :
    ∃ id b', b.functionId mapping symbol symbolName lineno = .ok (id, b') ∧ Within S b'.strings := by
  simp only [Symbol.strings, name, List.cons_subset] at known
  obtain ⟨inName, inSystem, inFile, -⟩ := known
  simp only [Builder.functionId, updateMapping_strings]
  split
  · exact ⟨_, b, rfl, within⟩
  · obtain ⟨nameIdx, t₁, insert₁, within₁⟩ := within.insert fits inName
    obtain ⟨systemIdx, t₂, insert₂, within₂⟩ := within₁.insert fits inSystem
    obtain ⟨fileIdx, t₃, insert₃, within₃⟩ := within₂.insert fits inFile
    simp only [insert₁, insert₂, insert₃, ok_bind]
    exact ⟨_, _, rfl, within₃⟩

theorem pushLine_returns {mapping : Option Nat} {symbol : Symbol} {state : Builder × List Proto.Line}
    (within : Within S state.1.strings) (fits : S.dedup.length ≤ 2 ^ 63) (known : symbol.strings ⊆ S) :
    ∃ state', Builder.pushLine mapping state symbol = .ok state' ∧ Within S state'.1.strings := by
  obtain ⟨b, line⟩ := state
  simp only [Builder.pushLine]
  split
  · exact ⟨_, rfl, within⟩
  · rename_i symbolName name
    obtain ⟨id, b', run, within'⟩ := functionId_returns within fits name known
      ((symbol.lineno.map UInt32.toNat).getD 0)
    rw [run]
    exact ⟨_, rfl, by simpa using within'⟩

theorem locationId_returns {info : Option (Mapping × Nat)} {runtime address : UInt64}
    (within : Within S b.strings) (fits : S.dedup.length ≤ 2 ^ 63)
    (known : (env.resolve runtime).flatMap Symbol.strings ⊆ S) :
    ∃ id b', b.locationId env info runtime address = .ok (id, b') ∧ Within S b'.strings := by
  simp only [Builder.locationId]
  split
  · exact ⟨_, b, rfl, within⟩
  · obtain ⟨⟨b', line⟩, run, within'⟩ := foldlM_total (env.resolve runtime)
      (f := Builder.pushLine ((info.map Prod.snd).filter (· < b.mapping.length)))
      (I := fun _ state => Within S state.1.strings) (b := (b, [])) within
      fun done symbol rest state split held => pushLine_returns held fits fun s hs =>
        known (List.mem_flatMap.2 ⟨symbol, split ▸ by simp, hs⟩)
    rw [run]
    exact ⟨_, _, rfl, within'⟩

/-- Rebasing returns exactly when the sum stays in u64 or nobody checks. -/
theorem fileRelativeAddr_returns {checks : Bool} {runtime : UInt64} :
    (∃ address, fileRelativeAddr checks (mappingInfo mappings runtime) runtime = .ok address) ↔
      (checks = true → ∀ m idx, mappingInfo mappings runtime = some (m, idx) →
        (runtime - m.memoryStart).toNat + m.memoryOffset.toNat < 2 ^ 64) := by
  cases found : mappingInfo mappings runtime with
  | none => simp [fileRelativeAddr]
  | some info =>
    obtain ⟨m, idx⟩ := info
    have sub : u64Sub checks runtime m.memoryStart = .ok (runtime - m.memoryStart) :=
      u64Sub_total.2 fun _ => (mappingInfo_some found).2.1
    simp only [fileRelativeAddr, sub, ok_bind]
    constructor
    · rintro ⟨address, add⟩ on _ _ ⟨⟩
      obtain rfl := u64Add_ok add
      exact u64Add_total.1 add on
    · intro below
      exact ⟨_, u64Add_total.2 fun on => below on m idx rfl⟩

/-- The strings of a stack's item. -/
structure ItemWithin (S : List String) (env : Env) (annoKey : String)
    (item : WeightedStack F × Option String) : Prop where
  annoKey : annoKey ∈ S
  anno : ∀ text, item.2 = some text → text ∈ S
  symbols : ∀ addr ∈ item.1.addrs, (env.resolve (addr - 1)).flatMap Symbol.strings ⊆ S

/-- A frame that fits is pushed. -/
theorem pushFrame_returns {item : WeightedStack F × Option String} {state : Builder × Proto.Sample}
    {addr : UInt64} (within : Within S state.1.strings) (fits : S.dedup.length ≤ 2 ^ 63)
    (known : ItemWithin S env annoKey item) (mem : addr ∈ item.1.addrs)
    (frame : env.overflowChecks = true → FrameFits mappings addr) :
    ∃ state', Builder.pushFrame env mappings annoKey item.2 state addr = .ok state' ∧
      Within S state'.1.strings := by
  obtain ⟨b, sample⟩ := state
  have decrement : u64Sub env.overflowChecks addr 1 = .ok (addr - 1) := by
    apply u64Sub_total.2
    intro on
    apply UInt64.le_iff_toNat_le.2
    have positive : addr.toNat ≠ 0 := fun zero => (frame on).decrement (UInt64.toNat_inj.1 zero)
    exact Nat.one_le_iff_ne_zero.2 positive
  obtain ⟨address, rebase⟩ := fileRelativeAddr_returns.2 fun on => (frame on).rebase
  obtain ⟨id, b₁, location, within₁⟩ :
      ∃ id b₁, b.locationId env (mappingInfo mappings (addr - 1)) (addr - 1) address = .ok (id, b₁) ∧
        Within S b₁.strings := locationId_returns within fits (known.symbols addr mem)
  simp only [Builder.pushFrame, decrement, rebase, location, ok_bind]
  cases anno : item.2 with
  | none => exact ⟨_, rfl, within₁⟩
  | some text =>
    obtain ⟨key, t₁, insert₁, within₂⟩ := within₁.insert fits known.annoKey
    obtain ⟨str, t₂, insert₂, within₃⟩ := within₂.insert fits (known.anno text anno)
    simp only [insert₁, insert₂, ok_bind]
    exact ⟨_, rfl, within₃⟩

/-- A frame that was pushed under overflow checks fits. -/
theorem pushFrame_fits {anno : Option String} {state state' : Builder × Proto.Sample} {addr : UInt64}
    (run : Builder.pushFrame env mappings annoKey anno state addr = .ok state')
    (on : env.overflowChecks = true) : FrameFits mappings addr := by
  obtain ⟨runtime, decrement, run₁⟩ := bind_ok.1 run
  obtain ⟨address, rebase, -⟩ := bind_ok.1 run₁
  obtain rfl := u64Sub_ok decrement
  refine ⟨?_, fileRelativeAddr_returns.1 ⟨address, rebase⟩ on⟩
  rintro rfl
  exact absurd (u64Sub_total.1 decrement on) (by decide)

theorem pushSample_returns [F64Cast F] {item : WeightedStack F × Option String} (within : Within S b.strings)
    (fits : S.dedup.length ≤ 2 ^ 63) (known : ItemWithin S env annoKey item)
    (converts : Converts env.overflowChecks mappings item.1) :
    ∃ b', Builder.pushSample env mappings annoKey b item = .ok b' ∧ Within S b'.strings := by
  obtain ⟨value, cast⟩ := converts.weight
  obtain ⟨⟨b₁, sample⟩, frames, within₁⟩ := foldlM_total item.1.addrs.reverse
    (f := Builder.pushFrame env mappings annoKey item.2)
    (I := fun _ state => Within S state.1.strings) (b := (b, ⟨[], [value], []⟩)) within
    fun done addr rest state split held => by
      have mem : addr ∈ item.1.addrs := List.mem_reverse.1 (split ▸ by simp)
      exact pushFrame_returns held fits known mem fun on => converts.frames on addr mem
  have expected : expect "no exabyte heap sizes" (i64TryCastFrom (F64Cast.trunc item.1.weight)) = .ok value :=
    expect_ok.2 cast
  simp only [Builder.pushSample, expected, ok_bind, frames]
  exact ⟨_, rfl, within₁⟩

theorem pushSample_converts [F64Cast F] {item : WeightedStack F × Option String} {b' : Builder}
    (run : Builder.pushSample env mappings annoKey b item = .ok b') :
    Converts env.overflowChecks mappings item.1 := by
  obtain ⟨value, cast, run₁⟩ := bind_ok.1 run
  obtain ⟨⟨b₁, sample⟩, frames, -⟩ := bind_ok.1 run₁
  refine ⟨⟨value, expect_ok.1 cast⟩, fun on addr mem => ?_⟩
  have all := foldlM_run (I := fun done _ => ∀ addr ∈ done, FrameFits mappings addr) (by simp)
    (fun done addr rest s s' _ held step => by
      simpa [or_imp, forall_and] using ⟨held, pushFrame_fits step on⟩) frames
  exact all addr (List.mem_reverse.2 mem)

theorem pushMapping_returns {entry : Mapping × Nat} (within : Within S b.strings)
    (fits : S.dedup.length ≤ 2 ^ 63) (known : entry.1.strings ⊆ S) :
    ∃ b', b.pushMapping entry = .ok b' ∧ Within S b'.strings := by
  obtain ⟨m, id⟩ := entry
  simp only [Mapping.strings, List.cons_subset] at known
  obtain ⟨inPath, inBuild, -⟩ := known
  obtain ⟨filename, t₁, insert₁, within₁⟩ := within.insert fits inPath
  simp only [Builder.pushMapping, insert₁, ok_bind]
  cases build : m.buildId with
  | none => exact ⟨_, rfl, within₁⟩
  | some buildId =>
    have text : m.buildIdText = buildId.toString := by simp [Mapping.buildIdText, build]
    obtain ⟨idx, t₂, insert₂, within₂⟩ := within₁.insert fits (text ▸ inBuild)
    simp only [Builder.buildIdIdx, insert₂, ok_bind]
    exact ⟨_, rfl, within₂⟩

end Steps

variable {F : Type} {env : Env} {self : StackProfile F}
  {items : List (WeightedStack F × Option String)} {sampleType periodType : String × String}
  {annoKey : Option String}

/-- Strings of an item are strings of the profile. -/
theorem StackProfile.Annotated.itemWithin {key : String} {item : WeightedStack F × Option String}
    (h : self.Annotated items) (mem : item ∈ items) :
    ItemWithin (self.strings env sampleType periodType key) env key item := by
  obtain ⟨entry, inside, same, found⟩ := exists_of_mem_right h mem
  refine ⟨by simp [StackProfile.strings], fun text e => ?_, fun addr here s hs => ?_⟩
  · rw [e] at found
    unfold StackProfile.annotationOf at found
    split at found
    · obtain ⟨text', there, run⟩ := bind_ok.1 found
      cases run
      have := List.mem_of_getElem? (unwrap_ok.1 there)
      simp [StackProfile.strings, this]
    · cases found
  · rw [← same] at here
    apply List.mem_append_right _
    exact List.mem_flatMap.2 ⟨entry, inside, List.mem_flatMap.2 ⟨addr, here, hs⟩⟩

/-- Every stack of a profile that was converted converts. -/
theorem toPprofProto_converts [F64Cast F] {p : Proto.Profile} (annotated : self.Annotated items)
    (run : toPprofProto env self sampleType periodType annoKey = .ok p) :
    ∀ item ∈ items, Converts env.overflowChecks self.mappings item.1 := by
  obtain ⟨⟨_, _⟩, -, run₁⟩ := bind_ok.1 run
  obtain ⟨⟨_, _⟩, -, run₂⟩ := bind_ok.1 run₁
  obtain ⟨⟨_, _⟩, -, run₃⟩ := bind_ok.1 run₂
  obtain ⟨⟨_, _⟩, -, run₄⟩ := bind_ok.1 run₃
  obtain ⟨_, -, run₅⟩ := bind_ok.1 run₄
  obtain ⟨b, -, run₆⟩ := bind_ok.1 run₅
  obtain ⟨b', loop, -⟩ := bind_ok.1 run₆
  rw [annotated.forEach_eq] at loop
  refine foldlM_run (I := fun done _ => ∀ item ∈ done, Converts env.overflowChecks self.mappings item.1)
    (by simp) (fun done last rest s s' _ held step item mem => ?_) loop
  rcases List.mem_append.1 mem with mem | mem
  · exact held item mem
  · exact List.mem_singleton.1 mem ▸ pushSample_converts step

/-- **When the conversion returns.** With the clock and the strings inside an
i64, exactly when every stack converts. -/
theorem toPprofProto_returns [F64Cast F] (annotated : self.Annotated items) (clock : env.ClockFits)
    (fits : StringsFit env self sampleType periodType annoKey) :
    (∃ p, toPprofProto env self sampleType periodType annoKey = .ok p) ↔
      ∀ item ∈ items, Converts env.overflowChecks self.mappings item.1 := by
  constructor
  · rintro ⟨p, run⟩
    exact toPprofProto_converts annotated run
  · intro converts
    unfold StringsFit at fits
    generalize key_eq : annoKey.getD "annotation" = key at fits
    have known : ∀ s ∈ ["", sampleType.1, sampleType.2, periodType.1, periodType.2],
        s ∈ self.strings env sampleType periodType key := by simp [StackProfile.strings]
    simp only [List.forall_mem_cons] at known
    obtain ⟨zero, in₁, in₂, in₃, in₄, -⟩ := known
    have within : Within (self.strings env sampleType periodType key) StringTable.new :=
      ⟨[""], StringTable.new_interned, by simpa using zero⟩
    obtain ⟨t, t₁, insert₁, within₁⟩ := within.insert fits in₁
    obtain ⟨u, t₂, insert₂, within₂⟩ := within₁.insert fits in₂
    obtain ⟨pt, t₃, insert₃, within₃⟩ := within₂.insert fits in₃
    obtain ⟨pu, t₄, insert₄, within₄⟩ := within₃.insert fits in₄
    obtain ⟨b₁, mappings, within₅⟩ := foldlM_total (self.mappings.zipIdx 1)
      (f := Builder.pushMapping) (b := ⟨t₄, [], [], [], [], ∅, ∅⟩)
      (I := fun _ b => Within (self.strings env sampleType periodType key) b.strings) within₄
      fun done entry rest b split held => by
        have mem : entry ∈ self.mappings.zipIdx 1 := split ▸ by simp
        have inside : entry.1 ∈ self.mappings := (List.mem_zipIdx mem).2.2 ▸ List.getElem_mem _
        apply pushMapping_returns held fits
        intro s hs
        have := List.mem_flatMap.2 ⟨entry.1, inside, hs⟩
        simp [StackProfile.strings, this]
    obtain ⟨b₂, samples, -⟩ := foldlM_total items
      (f := Builder.pushSample env self.mappings key) (b := b₁)
      (I := fun _ b => Within (self.strings env sampleType periodType key) b.strings) within₅
      fun done item rest b split held => by
        have mem : item ∈ items := split ▸ by simp
        exact pushSample_returns held fits (annotated.itemWithin mem) (converts item mem)
    simp only [toPprofProto, key_eq, insert₁, insert₂, insert₃, insert₄, ok_bind,
      env.timeNanos_of_fits clock, mappings, annotated.forEach_eq, samples]
    exact ⟨_, rfl⟩

end JemallocPprof
