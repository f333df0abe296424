import JemallocPprof.Attribution

/-!
# The symbol tables

What the callback of `backtrace::resolve` leaves behind: the function table
with its id cache, the strings and the flags of the mapping. `SymbolTables`
ties them to the named symbols met so far; `functionId_step` and
`pushLine_step` extend it by one symbol, `pushLines_run` by those of a frame.
-/

namespace JemallocPprof
set_option autoImplicit false
open Lib

/-- The tables after the named symbols `es`. -/
structure SymbolTables (strings : List String) (mappings : List Mapping) (es : List Named)
    (inlined : Nat → Prop) (b : Builder) : Prop where
  interned : b.strings.Interned strings
  mapping : Paired (MappingMatches strings) b.mapping mappings
  flags : ∀ i pm, b.mapping[i]? = some pm → FlagsMatch es inlined i pm
  functionIds : ∀ name : String, b.functionIds[name]? = (rank Named.name es name).map (· + 1)
  function : Paired (FunctionMatches strings) b.function (firsts Named.name es)

/-- The callback touches neither locations nor samples. -/
structure KeepsLocations (b b' : Builder) : Prop where
  location : b'.location = b.location
  locationIds : b'.locationIds = b.locationIds
  sample : b'.sample = b.sample

theorem KeepsLocations.refl (b : Builder) : KeepsLocations b b := ⟨rfl, rfl, rfl⟩

theorem KeepsLocations.trans {b b' b'' : Builder} (h : KeepsLocations b b') (h' : KeepsLocations b' b'') :
    KeepsLocations b b'' :=
  ⟨h'.location.trans h.location, h'.locationIds.trans h.locationIds, h'.sample.trans h.sample⟩

section Grow
variable {strings more : List String} {i : Nat} {s : String}

/-- Strings keep their index while the table grows. -/
theorem Reads.append (h : Reads strings i s) : Reads (strings ++ more) i s := by
  have lt := (List.getElem?_eq_some_iff.1 h).1
  rw [Reads, List.getElem?_append_left lt]
  exact h

theorem MappingMatches.append {pm : Proto.Mapping} {m : Mapping} (h : MappingMatches strings i pm m) :
    MappingMatches (strings ++ more) i pm m :=
  ⟨h.id, h.filename.append, h.buildId.append⟩

theorem FunctionMatches.append {f : Proto.Function} {e : Named} (h : FunctionMatches strings i f e) :
    FunctionMatches (strings ++ more) i f e :=
  ⟨h.id, h.name.append, h.systemName.append, h.filename.append⟩

theorem HasId.append {α κ : Type} [DecidableEq κ] {key : α → κ} {items more : List α} {k : κ} {id : Nat}
    (h : HasId key items k id) : HasId key (items ++ more) k id := by
  obtain ⟨j, held, e⟩ := h
  exact ⟨j, rank_append held, e⟩

theorem LineMatches.append {es more : List Named} {line : Proto.Line} {e : Named}
    (h : LineMatches es line e) : LineMatches (es ++ more) line e :=
  ⟨h.lineno, h.function.append⟩

end Grow

/-- The last item's own id, when its key is new. -/
theorem hasId_new {α κ : Type} [DecidableEq κ] {key : α → κ} {items : List α} {a : α}
    (new : key a ∉ items.map key) :
    HasId key (items ++ [a]) (key a) ((firsts key items).length + 1) :=
  ⟨(firsts key items).length, by rw [rank_snoc_new new, if_pos rfl], rfl⟩

section Cache
variable {α κ : Type} [DecidableEq κ] [Ord κ] {key : α → κ} {items : List α} {a : α}
  {cache : Std.TreeMap κ Nat} {k : κ} {id : Nat}

/-- A cached id is the key's. -/
theorem cache_hit (h : ∀ k, cache[k]? = (rank key items k).map (· + 1)) (hit : cache[k]? = some id) :
    k ∈ items.map key ∧ HasId key items k id := by
  rw [h] at hit
  obtain ⟨j, known, rfl⟩ := Option.map_eq_some_iff.1 hit
  exact ⟨mem_of_rank known, j, known, rfl⟩

/-- A key without an id is new. -/
theorem cache_miss (h : ∀ k, cache[k]? = (rank key items k).map (· + 1)) (miss : cache[k]? = none) :
    k ∉ items.map key := by
  rw [h, Option.map_eq_none_iff] at miss
  exact rank_eq_none.1 miss

/-- A cache that holds the ids of `items` holds those of one item more. -/
theorem cache_snoc [Std.TransOrd κ] [Std.LawfulEqOrd κ]
    (h : ∀ k, cache[k]? = (rank key items k).map (· + 1)) (new : key a ∉ items.map key) (k : κ) :
    (cache.insert (key a) ((firsts key items).length + 1))[k]? =
      (rank key (items ++ [a]) k).map (· + 1) := by
  rw [Std.TreeMap.getElem?_insert, rank_snoc_new new]
  by_cases same : k = key a
  · rw [if_pos same, same, if_pos Std.ReflCmp.compare_self, Option.map_some]
  · rw [if_neg same, if_neg (fun e => same (Std.LawfulEqCmp.eq_of_compare e).symm), h]

end Cache

section Update
variable {b : Builder} {mapping : Option Nat} {f : Proto.Mapping → Proto.Mapping} {i : Nat}

@[simp] theorem updateMapping_strings : (b.updateMapping mapping f).strings = b.strings := by
  cases mapping <;> rfl

@[simp] theorem updateMapping_function : (b.updateMapping mapping f).function = b.function := by
  cases mapping <;> rfl

@[simp] theorem updateMapping_functionIds : (b.updateMapping mapping f).functionIds = b.functionIds := by
  cases mapping <;> rfl

theorem updateMapping_keeps : KeepsLocations b (b.updateMapping mapping f) := by
  cases mapping <;> exact ⟨rfl, rfl, rfl⟩

theorem updateMapping_get : (b.updateMapping mapping f).mapping[i]? =
    if mapping = some i then (b.mapping[i]?).map f else b.mapping[i]? := by
  cases mapping with
  | none => rfl
  | some idx =>
    by_cases here : idx = i
    · subst here
      simp [Builder.updateMapping]
    · simp [Builder.updateMapping, here]

theorem updateMapping_length : (b.updateMapping mapping f).mapping.length = b.mapping.length := by
  cases mapping <;> simp [Builder.updateMapping]

/-- An update of the flags keeps what the table says of the mappings. -/
theorem updateMapping_paired {strings : List String} {mappings : List Mapping}
    (h : Paired (MappingMatches strings) b.mapping mappings)
    (keeps : ∀ m, (f m).id = m.id ∧ (f m).filename = m.filename ∧ (f m).buildId = m.buildId) :
    Paired (MappingMatches strings) (b.updateMapping mapping f).mapping mappings := by
  refine h.of_getElem? updateMapping_length fun i pm' here => ?_
  rw [updateMapping_get] at here
  split at here
  · obtain ⟨pm, old, rfl⟩ := Option.map_eq_some_iff.1 here
    obtain ⟨id, filename, buildId⟩ := keeps pm
    refine ⟨pm, old, fun m matched => ⟨?_, ?_, ?_⟩⟩
    · rw [id, matched.id]
    · rw [filename]; exact matched.filename
    · rw [buildId]; exact matched.buildId
  · exact ⟨pm', here, fun m matched => matched⟩

end Update

section Flags
variable {es : List Named} {e : Named} {inlined : Nat → Prop} {i : Nat} {pm : Proto.Mapping}

theorem FlagsMatch.congr {inlined' : Nat → Prop} (h : FlagsMatch es inlined i pm)
    (same : inlined i ↔ inlined' i) : FlagsMatch es inlined' i pm :=
  ⟨h.hasFunctions, h.hasFilenames, h.hasLineNumbers, h.hasInlineFrames.trans same⟩

theorem FlagsMatch.old (h : FlagsMatch es inlined i pm) (old : e.name ∈ es.map Named.name) :
    FlagsMatch (es ++ [e]) inlined i pm := by
  have same : firsts Named.name (es ++ [e]) = firsts Named.name es := firsts_snoc_old old
  exact ⟨same ▸ h.hasFunctions, same ▸ h.hasFilenames, same ▸ h.hasLineNumbers, h.hasInlineFrames⟩

theorem FlagsMatch.elsewhere (h : FlagsMatch es inlined i pm) (new : e.name ∉ es.map Named.name)
    (other : e.mapping ≠ some i) : FlagsMatch (es ++ [e]) inlined i pm := by
  have grown : firsts Named.name (es ++ [e]) = firsts Named.name es ++ [e] := firsts_snoc_new new
  refine ⟨?_, ?_, ?_, h.hasInlineFrames⟩
  · rw [h.hasFunctions, grown]; simp [other]
  · rw [h.hasFilenames, grown]; simp [other]
  · rw [h.hasLineNumbers, grown]; simp [other]

/-- The three updates made when the name is new. -/
theorem FlagsMatch.here (h : FlagsMatch es inlined i pm) (new : e.name ∉ es.map Named.name)
    (here : e.mapping = some i) :
    FlagsMatch (es ++ [e]) inlined i { pm with
      hasFunctions := true
      hasFilenames := pm.hasFilenames || e.filename != ""
      hasLineNumbers := pm.hasLineNumbers || decide (e.lineno > 0) } := by
  have grown : firsts Named.name (es ++ [e]) = firsts Named.name es ++ [e] := firsts_snoc_new new
  refine ⟨?_, ?_, ?_, h.hasInlineFrames⟩
  · rw [grown]; simp [here]
  · rw [grown]; simp [h.hasFilenames, here, or_and_right, exists_or]
  · rw [grown]; simp [h.hasLineNumbers, here, or_and_right, exists_or]

end Flags

section Steps
variable {strings : List String} {mappings : List Mapping} {es : List Named} {inlined : Nat → Prop}
  {b b' : Builder} {mapping : Option Nat} {symbol : Symbol} {symbolName : SymbolName} {e : Named}
  {id : Nat}

/-- A symbol whose name is known leaves the tables as they are. -/
theorem SymbolTables.old_name (h : SymbolTables strings mappings es inlined b)
    (old : e.name ∈ es.map Named.name) : SymbolTables strings mappings (es ++ [e]) inlined b where
  interned := h.interned
  mapping := h.mapping
  flags := fun i pm there => (h.flags i pm there).old old
  functionIds := by
    intro name
    rw [h.functionIds, rank_snoc_old old]
  function := by
    rw [firsts_snoc_old old]
    exact h.function

/-- A symbol whose name is new adds its function and updates the flags of its mapping. -/
theorem SymbolTables.new_name {more : List String} {t : StringTable} {function : Proto.Function}
    (h : SymbolTables strings mappings es inlined b) (new : e.name ∉ es.map Named.name)
    (interned : t.Interned (strings ++ more))
    (matched : FunctionMatches (strings ++ more) b.function.length function e) :
    SymbolTables (strings ++ more) mappings (es ++ [e]) inlined
      { b.updateMapping e.mapping fun m => { m with
          hasFunctions := true
          hasFilenames := m.hasFilenames || e.filename != ""
          hasLineNumbers := m.hasLineNumbers || decide (e.lineno > 0) } with
        strings := t
        function := b.function ++ [function]
        functionIds := b.functionIds.insert e.name (b.function.length + 1) } where
  interned := interned
  mapping := by
    refine Paired.imp (updateMapping_paired h.mapping ?_) fun _ _ _ matched => matched.append
    exact fun m => ⟨rfl, rfl, rfl⟩
  flags := by
    intro i pm there
    rw [updateMapping_get] at there
    split at there
    · rename_i here
      obtain ⟨pm, old, rfl⟩ := Option.map_eq_some_iff.1 there
      exact (h.flags i pm old).here new here
    · rename_i other
      exact (h.flags i pm there).elsewhere new other
  functionIds := by
    have length : b.function.length = (firsts Named.name es).length := h.function.length
    rw [length]
    exact cache_snoc h.functionIds new
  function := by
    rw [firsts_snoc_new new]
    exact (h.function.imp fun _ _ _ matched => matched.append).snoc matched

/-- **One function id.** The symbol joins the list, its id is the one of its
name's first occurrence. -/
theorem functionId_step (h : SymbolTables strings mappings es inlined b)
    (name : symbol.name = some symbolName) (made : namedSymbol mapping symbol = some e)
    (run : b.functionId mapping symbol symbolName e.lineno = .ok (id, b')) :
    ∃ more, SymbolTables (strings ++ more) mappings (es ++ [e]) inlined b' ∧
      HasId Named.name (es ++ [e]) e.name id ∧ KeepsLocations b b' := by
  rw [namedSymbol, name, Option.map_some, Option.some.injEq] at made
  have e_name : symbolName.demangled = e.name := by rw [← made]
  have e_system : fromUtf8Lossy symbolName.bytes = e.systemName := by rw [← made]
  have e_file : (symbol.filename.map fromUtf8Lossy).getD "" = e.filename := by rw [← made]
  have e_mapping : mapping = e.mapping := by rw [← made]
  simp only [Builder.functionId, e_name, e_system, e_file, e_mapping, updateMapping_strings,
    updateMapping_function, updateMapping_functionIds] at run
  split at run
  · -- the name is known: the tables stay
    rename_i held
    cases run
    obtain ⟨old, hasId⟩ := cache_hit h.functionIds held
    exact ⟨[], by simpa using h.old_name old, hasId.append, .refl b⟩
  · -- a new name: a function, three strings, the flags of the mapping
    rename_i absent
    have new := cache_miss h.functionIds absent
    obtain ⟨⟨nameIdx, t1⟩, insert1, run⟩ := bind_ok.1 run
    obtain ⟨⟨systemIdx, t2⟩, insert2, run⟩ := bind_ok.1 run
    obtain ⟨⟨fileIdx, t3⟩, insert3, run⟩ := bind_ok.1 run
    cases run
    obtain ⟨more1, interned1, reads1, -⟩ := StringTable.insert_interned h.interned insert1
    obtain ⟨more2, interned2, reads2, -⟩ := StringTable.insert_interned interned1 insert2
    obtain ⟨more3, interned3, reads3, -⟩ := StringTable.insert_interned interned2 insert3
    have matched : FunctionMatches (strings ++ more1 ++ more2 ++ more3) b.function.length
        ⟨b.function.length + 1, nameIdx, systemIdx, fileIdx⟩ e :=
      ⟨rfl, Reads.append (Reads.append reads1), Reads.append reads2, reads3⟩
    rw [List.append_assoc, List.append_assoc] at interned3 matched
    have length : b.function.length = (firsts Named.name es).length := h.function.length
    exact ⟨_, h.new_name new interned3 matched, length ▸ hasId_new new,
      updateMapping_keeps.location, updateMapping_keeps.locationIds, updateMapping_keeps.sample⟩

theorem SymbolTables.congr {inlined' : Nat → Prop} (h : SymbolTables strings mappings es inlined b)
    (same : ∀ i, inlined i ↔ inlined' i) : SymbolTables strings mappings es inlined' b :=
  ⟨h.interned, h.mapping, fun i pm there => (h.flags i pm there).congr (same i), h.functionIds, h.function⟩

/-- The `n`-th line of a location sets the inline flag of its mapping, unless it is the first. -/
theorem SymbolTables.inline {n : Nat} (h : SymbolTables strings mappings es inlined b) :
    SymbolTables strings mappings es (fun i => inlined i ∨ mapping = some i ∧ 2 ≤ n)
      (b.updateMapping mapping fun m => { m with
        hasInlineFrames := m.hasInlineFrames || decide (n > 1) }) where
  interned := by simpa using h.interned
  mapping := updateMapping_paired h.mapping fun m => ⟨rfl, rfl, rfl⟩
  flags := by
    intro i pm there
    rw [updateMapping_get] at there
    split at there
    · rename_i here
      obtain ⟨pm, old, rfl⟩ := Option.map_eq_some_iff.1 there
      have flags := h.flags i pm old
      refine ⟨flags.hasFunctions, flags.hasFilenames, flags.hasLineNumbers, ?_⟩
      simp only [Bool.or_eq_true, flags.hasInlineFrames, decide_eq_true_eq, here, true_and]
      exact or_congr_right (by omega)
    · rename_i other
      exact (h.flags i pm there).congr (by simp [other])
  functionIds := by simpa using h.functionIds
  function := by simpa using h.function

/-- The lines of a frame so far. -/
structure LinesSoFar (strings : List String) (mappings : List Mapping) (es : List Named)
    (inlined : Nat → Prop) (mapping : Option Nat) (b : Builder) (done : List Symbol)
    (state : Builder × List Proto.Line) : Prop where
  tables : ∃ more, SymbolTables (strings ++ more) mappings (es ++ done.filterMap (namedSymbol mapping))
    (fun i => inlined i ∨ mapping = some i ∧ 2 ≤ (done.filterMap (namedSymbol mapping)).length) state.1
  line : List.Forall₂ (LineMatches (es ++ done.filterMap (namedSymbol mapping))) state.2
    (done.filterMap (namedSymbol mapping))
  keeps : KeepsLocations b state.1

/-- **One callback.** A named symbol adds its line, any other adds nothing. -/
theorem pushLine_step {done : List Symbol} {state state' : Builder × List Proto.Line}
    (h : LinesSoFar strings mappings es inlined mapping b done state)
    (run : Builder.pushLine mapping state symbol = .ok state') :
    LinesSoFar strings mappings es inlined mapping b (done ++ [symbol]) state' := by
  obtain ⟨b₀, line⟩ := state
  obtain ⟨⟨more, tables⟩, lines, keeps⟩ := h
  simp only at tables lines keeps
  simp only [Builder.pushLine] at run
  split at run
  · -- no name
    rename_i nameless
    cases run
    have skip : (done ++ [symbol]).filterMap (namedSymbol mapping) = done.filterMap (namedSymbol mapping) := by
      simp [List.filterMap_append, namedSymbol, nameless]
    exact ⟨⟨more, by rw [skip]; exact tables⟩, by rw [skip]; exact lines, keeps⟩
  · rename_i symbolName named
    obtain ⟨⟨id, b₁⟩, interned, run⟩ := bind_ok.1 run
    cases run
    obtain ⟨e, made⟩ : ∃ e, namedSymbol mapping symbol = some e := by simp [namedSymbol, named]
    have e_lineno : (symbol.lineno.map UInt32.toNat).getD 0 = e.lineno := by
      rw [namedSymbol, named, Option.map_some, Option.some.injEq] at made
      rw [← made]
    rw [e_lineno] at interned
    obtain ⟨more', tables', hasId, keeps'⟩ := functionId_step tables named made interned
    have snoc : (done ++ [symbol]).filterMap (namedSymbol mapping) =
        done.filterMap (namedSymbol mapping) ++ [e] := by
      simp [List.filterMap_append, made]
    have count : line.length = (done.filterMap (namedSymbol mapping)).length := lines.length_eq
    refine ⟨⟨more ++ more', ?_⟩, ?_, keeps.trans (keeps'.trans updateMapping_keeps)⟩
    · rw [snoc, ← List.append_assoc es, ← List.append_assoc strings]
      refine SymbolTables.congr (SymbolTables.inline tables') fun i => ?_
      simp only [List.length_append, List.length_singleton, count, or_assoc, ← and_or_left]
      exact or_congr_right (and_congr_right fun _ => by omega)
    · rw [snoc, ← List.append_assoc]
      refine List.rel_append (lines.imp fun l e matched => matched.append) (.cons ⟨?_, hasId⟩ .nil)
      exact e_lineno

/-- **All callbacks of a frame.** -/
theorem pushLines_run {symbols : List Symbol} {b' : Builder} {line : List Proto.Line}
    (h : SymbolTables strings mappings es inlined b)
    (run : symbols.foldlM (Builder.pushLine mapping) (b, []) = .ok (b', line)) :
    LinesSoFar strings mappings es inlined mapping b symbols (b', line) := by
  refine foldlM_run ⟨⟨[], ?_⟩, .nil, .refl b⟩ ?_ run
  · simpa using h
  · intro done symbol rest state state' _ inv step
    exact pushLine_step inv step

end Steps

end JemallocPprof
