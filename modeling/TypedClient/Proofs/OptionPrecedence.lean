import TypedClient.Options
import TypedClient.Proofs.LookUps
import TypedClient.Proofs.Outcomes
import TypedClient.Proofs.Tables

/-!
# Where the value of an option comes from

An option can be set by an override, by entries of a mapping whose keys may spell
its name in many ways, and by its default. What counts is one value for each
option, `settled`: the override unless it is null, else the last of the entries,
else the default. The rest of what was given is not looked at, so a value that
would be refused does no harm once something else counts in its place.

Two facts make this a law of `ofEntries`. The first unknown key is refused before
anything else is done, and without one the options are those of the settled
values and of nothing else. Which options these are `Built` says value by value.
So it does not matter how keys are spelled, nor in which order entries of
different options come.
-/

namespace TypedClient.ClientOptions

variable {store : Store} {entries : Entries} {overrides values : List (String × Value)}
  {o : ClientOptions}

/-! ## Values that count -/

/-- A key that means an option. -/
def Known (key : Scalar) : Prop := nameOf key.plain ∈ names

/-- The values that the entries of a mapping give to an option, in order. -/
def given (entries : Entries) (name : String) : List Value :=
  (entries.filter fun entry => nameOf entry.1.plain = name).map (·.2)

/-- The value that an option is overridden with. -/
def override? (overrides : List (String × Value)) (name : String) : Option Value :=
  (overrides.lookup name).filter fun v => !v.isNull

/-- The value that an option has unless something is said about it. -/
def defaultValue (name : String) : Value := Entries.get ({} : ClientOptions).toEntries name

/-- The value of an option that counts. -/
def settled (entries : Entries) (overrides : List (String × Value)) (name : String) : Value :=
  ((override? overrides name).or (given entries name).getLast?).getD (defaultValue name)

/-- The options that are made of a value for each name. -/
structure Built (store : Store) (value : String → Value) (o : ClientOptions) : Prop where
  src : o.src = value "src"
  outDir : ∃ s, value "out_dir" = .text s ∧ o.outDir = Path.ofText s
  language : value "language" = .text o.language.name
  indent : store.plain (value "indent") = o.indent.name
  semicolon : o.semicolon = value "semicolon"
  host : o.host = value "host"
  schemes : o.schemes = value "schemes"
  /-- No list of schemes, or a list. -/
  schemes_list : o.schemes = .null ∨ ∃ id, o.schemes = .sequence id
  securityDefinitions : o.securityDefinitions = value "security_definitions"
  timeout : o.timeout = value "timeout"
  /-- No time limit, or a natural number, as which a truth value counts. -/
  timeout_natural : o.timeout = .null ∨ (∃ b, o.timeout = .bool b) ∨
    ∃ n : Nat, o.timeout = .scalar (.int n)
  getAuthorization : o.getAuthorization = value "get_authorization"
  applyAuthorization : o.applyAuthorization = value "apply_authorization"
  strict : o.strict = value "strict"

/-! ## One option -/

theorem outDirOf_eq_ok {v : Value} {p : Path} :
    outDirOf v = .ok p ↔ ∃ s, v = .text s ∧ p = Path.ofText s := by
  constructor
  · intro h
    unfold outDirOf at h
    split at h
    · next s => exact ⟨s, rfl, (Except.ok.inj h).symm⟩
    · cases h
  · rintro ⟨s, rfl, rfl⟩
    rfl

theorem languageOf_eq_ok {v : Value} {l : Language} :
    languageOf store v = .ok l ↔ v = .text l.name := by
  constructor
  · intro h
    unfold languageOf at h
    split at h
    · rw [← Except.ok.inj h]
      rfl
    · rw [← Except.ok.inj h]
      rfl
    · split at h <;> cases h
  · rintro rfl
    cases l <;> rfl

theorem mem_indents (indent : Indent) : indent ∈ Indent.all := by
  cases indent <;> decide

theorem indent_name_injective {a b : Indent} (h : a.name = b.name) : a = b := by
  cases a <;> cases b <;> first | rfl | exact absurd h (by decide)

theorem indentOf_eq_ok {v : Value} {indent : Indent} :
    indentOf store v = .ok indent ↔ store.plain v = indent.name := by
  unfold indentOf
  dsimp only
  constructor
  · intro h
    split at h
    · next found hfound =>
        have hname := List.find?_some hfound
        obtain rfl := Except.ok.inj h
        exact (of_decide_eq_true hname).symm
    · cases h
  · intro h
    rw [h]
    split
    · next found hfound =>
        have hname := List.find?_some hfound
        rw [indent_name_injective (of_decide_eq_true hname)]
    · next hnone =>
        exact absurd (decide_eq_true rfl) (List.find?_eq_none.1 hnone indent (mem_indents indent))

theorem isTimeout_iff {v : Value} :
    isTimeout v = true ↔ v = .null ∨ (∃ b, v = .bool b) ∨ ∃ n : Nat, v = .scalar (.int n) := by
  constructor
  · intro h
    unfold isTimeout at h
    split at h
    · exact .inl rfl
    · next b => exact .inr (.inl ⟨b, rfl⟩)
    · next n =>
        have hn : 0 ≤ n := by simpa using h
        exact .inr (.inr ⟨n.toNat, by rw [Int.toNat_of_nonneg hn]⟩)
    · cases h
  · rintro (rfl | ⟨b, rfl⟩ | ⟨n, rfl⟩)
    · rfl
    · rfl
    · simp [isTimeout]

theorem isSchemes_iff {v : Value} :
    isSchemes v = true ↔ v = .null ∨ ∃ id, v = .sequence id := by
  constructor
  · intro h
    unfold isSchemes at h
    split at h
    · exact .inl rfl
    · next id => exact .inr ⟨id, rfl⟩
    · cases h
  · rintro (rfl | ⟨id, rfl⟩) <;> rfl

/-! ## All options -/

theorem names_nodup : names.Nodup := by decide

/-- The values that a default makes the same as those of the options without any setting. -/
theorem defaultValue_eq :
    defaultValue "src" = .null ∧ defaultValue "out_dir" = .text "generated" ∧
    defaultValue "language" = .text "ts" ∧ defaultValue "indent" = .text "spaces" ∧
    defaultValue "semicolon" = .bool false ∧ defaultValue "host" = .null ∧
    defaultValue "schemes" = .null ∧ defaultValue "security_definitions" = .null ∧
    defaultValue "timeout" = .null ∧
    defaultValue "get_authorization" = .text defaultGetAuthorization ∧
    defaultValue "apply_authorization" = .text defaultApplyAuthorization ∧
    defaultValue "strict" = .bool false := by
  decide +kernel

/-- The options of values, each of which stands in place of its default. -/
theorem ofValues_eq_ok :
    ofValues store values = .ok o ↔
      Built store (fun name => effective values name (defaultValue name)) o := by
  obtain ⟨hsrc, hout, hlanguage, hindent, hsemicolon, hhost, hschemes, hsecurity, htimeout, hget,
    happly, hstrict⟩ := defaultValue_eq
  have hvalue : ∀ {name : String} {v : Value}, defaultValue name = v →
      effective values name v = (fun name => effective values name (defaultValue name)) name := by
    rintro name _ rfl
    rfl
  rw [ofValues, hvalue hsrc, hvalue hout, hvalue hlanguage, hvalue hindent, hvalue hsemicolon,
    hvalue hhost, hvalue hschemes, hvalue hsecurity, hvalue htimeout, hvalue hget, hvalue happly,
    hvalue hstrict]
  generalize (fun name => effective values name (defaultValue name)) = value
  constructor
  · intro h
    obtain ⟨outDir, houtDir, h⟩ := bind_eq_ok.1 h
    obtain ⟨language, hlang, h⟩ := bind_eq_ok.1 h
    dsimp only at h
    split at h
    · next indent hind =>
        obtain ⟨_, hpure, h⟩ := bind_eq_ok.1 h
        obtain rfl := pure_eq_ok.1 hpure
        split at h
        · cases h
        · next hlimit =>
            split at h
            · cases h
            · next hlist =>
                rw [← pure_eq_ok.1 h]
                exact {
                  src := rfl
                  outDir := outDirOf_eq_ok.1 (ofFault_eq_ok.1 houtDir)
                  language := languageOf_eq_ok.1 hlang
                  indent := indentOf_eq_ok.1 hind
                  semicolon := rfl
                  host := rfl
                  schemes := rfl
                  schemes_list := isSchemes_iff.1 (by simpa using hlist)
                  securityDefinitions := rfl
                  timeout := rfl
                  timeout_natural := isTimeout_iff.1 (by simpa using hlimit)
                  getAuthorization := rfl
                  applyAuthorization := rfl
                  strict := rfl }
    · cases h
  · intro h
    have hlimit : (!isTimeout o.timeout) = false := by rw [isTimeout_iff.2 h.timeout_natural]; rfl
    have hlist : (!isSchemes o.schemes) = false := by rw [isSchemes_iff.2 h.schemes_list]; rfl
    rw [outDirOf_eq_ok.2 h.outDir, languageOf_eq_ok.2 h.language, indentOf_eq_ok.2 h.indent,
      ← h.src, ← h.semicolon, ← h.host, ← h.schemes, ← h.securityDefinitions, ← h.timeout,
      ← h.getAuthorization, ← h.applyAuthorization, ← h.strict]
    simp only [hlimit, hlist, Bool.false_eq_true, if_false]
    rfl

/-! ## Values by name -/

/-- The values of a table count, and nothing else of it. -/
theorem ofValues_congr {others : List (String × Value)}
    (h : ∀ name ∈ names, effective values name (defaultValue name) =
      effective others name (defaultValue name)) :
    ofValues store values = ofValues store others := by
  obtain ⟨hsrc, hout, hlanguage, hindent, hsemicolon, hhost, hschemes, hsecurity, htimeout, hget,
    happly, hstrict⟩ := defaultValue_eq
  have hname : ∀ {name : String} {v : Value}, defaultValue name = v → name ∈ names →
      effective values name v = effective others name v := by
    rintro name _ rfl hmem
    exact h name hmem
  rw [ofValues, ofValues, hname hsrc (by decide), hname hout (by decide),
    hname hlanguage (by decide), hname hindent (by decide), hname hsemicolon (by decide),
    hname hhost (by decide), hname hschemes (by decide), hname hsecurity (by decide),
    hname htimeout (by decide), hname hget (by decide), hname happly (by decide),
    hname hstrict (by decide)]

/-- The effective value of a table that has one for each name. -/
theorem effective_table {value : String → Value} {name : String} (hname : name ∈ names)
    (v : Value) : effective (names.map fun name => (name, value name)) name v = value name := by
  have hkeys : (((names.map fun name => (name, value name)).reverse).map (·.1)).Nodup := by
    rw [List.map_reverse, List.map_map, List.nodup_reverse]
    exact (List.map_id names).symm ▸ names_nodup
  have hmem : (name, value name) ∈ (names.map fun name => (name, value name)).reverse :=
    List.mem_reverse.2 (List.mem_map_of_mem hname)
  rw [effective, (lookup_iff_mem hkeys).2 hmem, Option.getD_some]

/-! ## Mappings and overrides -/

theorem named_eq_ok :
    named store entries = .ok values ↔
      (∀ entry ∈ entries, Known entry.1) ∧
        values = entries.map fun entry => (nameOf entry.1.plain, entry.2) := by
  induction entries generalizing values with
  | nil => simp [named, eq_comm]
  | cons entry rest ih =>
    obtain ⟨key, v⟩ := entry
    rw [named, List.forall_mem_cons, List.map_cons]
    dsimp only
    by_cases hkey : Known key
    · rw [if_pos (List.contains_iff_mem.2 hkey), map_eq_ok]
      constructor
      · rintro ⟨found, hfound, rfl⟩
        obtain ⟨hrest, rfl⟩ := ih.1 hfound
        exact ⟨⟨hkey, hrest⟩, rfl⟩
      · rintro ⟨⟨-, hrest⟩, rfl⟩
        exact ⟨_, ih.2 ⟨hrest, rfl⟩, rfl⟩
    · rw [if_neg fun hcontains => hkey (List.contains_iff_mem.1 hcontains)]
      exact ⟨nofun, fun h => absurd h.1.1 hkey⟩

/-- The first key without a meaning is refused. -/
theorem named_unknown {before after : Entries} {key : Scalar} {v : Value}
    (hbefore : ∀ entry ∈ before, Known entry.1) (hkey : ¬Known key) :
    named store (before ++ (key, v) :: after) =
      .error ⟨key.plain, store.quoted v, "a known option"⟩ := by
  induction before with
  | nil =>
    rw [List.nil_append, named]
    exact if_neg fun hcontains => hkey (List.contains_iff_mem.1 hcontains)
  | cons entry rest ih =>
    obtain ⟨hfirst, hrest⟩ := List.forall_mem_cons.1 hbefore
    rw [List.cons_append, named, if_pos (List.contains_iff_mem.2 hfirst), ih hrest]
    rfl

theorem overriding_eq_ok {found : List (String × Value)} :
    overriding overrides = .ok found ↔
      (∀ override ∈ overrides, override.2.isNull = false → override.1 ∈ names) ∧
        found = overrides.filter fun override => !override.2.isNull := by
  rw [overriding]
  dsimp only
  constructor
  · intro h
    split at h
    · next hall =>
        refine ⟨fun override hmem hnull => ?_, (Except.ok.inj h).symm⟩
        have hgiven : override ∈ overrides.filter fun override => !override.2.isNull :=
          List.mem_filter.2 ⟨hmem, by rw [hnull]; rfl⟩
        exact List.contains_iff_mem.1 (List.all_eq_true.1 hall override hgiven)
    · cases h
  · rintro ⟨hnames, rfl⟩
    refine if_pos (List.all_eq_true.2 fun override hgiven => ?_)
    obtain ⟨hmem, hnull⟩ := List.mem_filter.1 hgiven
    exact List.contains_iff_mem.2 (hnames override hmem (by simpa using hnull))

/-- Overrides of different names, from wherever they are looked through. -/
theorem lookup_overrides (hdistinct : (overrides.map (·.1)).Nodup) (name : String) :
    (overrides.filter fun override => !override.2.isNull).reverse.lookup name =
      override? overrides name := by
  have hfiltered :
      ((overrides.filter fun override => !override.2.isNull).reverse.map (·.1)).Nodup := by
    rw [List.map_reverse, List.nodup_reverse]
    exact hdistinct.sublist (List.filter_sublist.map _)
  rw [Option.ext_iff]
  intro v
  rw [override?, Option.filter_eq_some_iff, lookup_iff_mem hfiltered, lookup_iff_mem hdistinct,
    List.mem_reverse, List.mem_filter]

theorem given_eq (entries : Entries) (name : String) :
    given entries name = (((entries.map fun entry => (nameOf entry.1.plain, entry.2)).filter
      (·.1 = name)).map (·.2)) := by
  rw [given, List.filter_map, List.map_map]
  rfl

/-- What is effective after the overrides have been added is the settled value. -/
theorem effective_settled (hdistinct : (overrides.map (·.1)).Nodup) (name : String) :
    effective ((entries.map fun entry => (nameOf entry.1.plain, entry.2)) ++
        overrides.filter fun override => !override.2.isNull) name (defaultValue name) =
      settled entries overrides name := by
  rw [effective, List.reverse_append, List.lookup_append, lookup_overrides hdistinct,
    lookup_reverse, ← given_eq, settled]

/-! ## Precedence -/

theorem ofEntries_known (hentries : ∀ entry ∈ entries, Known entry.1)
    (hnames : ∀ override ∈ overrides, override.1 ∈ names) :
    ofEntries store entries overrides =
      ofValues store ((entries.map fun entry => (nameOf entry.1.plain, entry.2)) ++
        overrides.filter fun override => !override.2.isNull) := by
  have hgiven := overriding_eq_ok.2 ⟨fun override hmem _ => hnames override hmem, rfl⟩
  rw [ofEntries, named_eq_ok.2 ⟨hentries, rfl⟩, hgiven]
  rfl

theorem ofEntries_unknown {before after : Entries} {key : Scalar} {v : Value}
    (hbefore : ∀ entry ∈ before, Known entry.1) (hkey : ¬Known key) :
    ofEntries store (before ++ (key, v) :: after) overrides =
      .error (.option ⟨key.plain, store.quoted v, "a known option"⟩) := by
  rw [ofEntries, named_unknown hbefore hkey]
  rfl

theorem ofEntries_eq_ok (hnames : ∀ override ∈ overrides, override.1 ∈ names)
    (hdistinct : (overrides.map (·.1)).Nodup) :
    ofEntries store entries overrides = .ok o ↔
      (∀ entry ∈ entries, Known entry.1) ∧ Built store (settled entries overrides) o := by
  by_cases hentries : ∀ entry ∈ entries, Known entry.1
  · rw [ofEntries_known hentries hnames, ofValues_eq_ok, funext (effective_settled hdistinct)]
    exact (and_iff_right hentries).symm
  · refine ⟨fun h => ?_, fun h => absurd h.1 hentries⟩
    rw [ofEntries] at h
    dsimp only at h
    split at h
    · next values hvalues => exact absurd (named_eq_ok.1 hvalues).1 hentries
    · cases h

/-- Every default is a value that its option may have. -/
theorem ofEntries_default : ofEntries store [] [] = .ok {} := by
  obtain ⟨hsrc, hout, hlanguage, hindent, hsemicolon, hhost, hschemes, hsecurity, htimeout, hget,
    happly, hstrict⟩ := defaultValue_eq
  suffices hbuilt : Built store (settled [] []) {} from
    (ofEntries_eq_ok (by simp) (by simp)).2 ⟨by simp, hbuilt⟩
  constructor
  case outDir => exact ⟨"generated", hout, by decide +kernel⟩
  case indent => exact congrArg store.plain hindent
  case schemes_list => exact .inl rfl
  case timeout_natural => exact .inl rfl
  all_goals
    symm
    assumption

/-- An option can be named in snake case and in camel case. -/
theorem nameOf_spellings : ∀ name ∈ names, nameOf name = name ∧
    nameOf (Naming.camelCase name) = name := by
  decide +kernel

/-! ## Mappings that say the same -/

/-- Each name has the same values in the same order, however its keys are
spelled and whatever comes between them. -/
def SameSettings (entries others : Entries) : Prop := ∀ name, given entries name = given others name

theorem mem_given {name : String} {v : Value} :
    v ∈ given entries name ↔ ∃ key, (key, v) ∈ entries ∧ nameOf key.plain = name := by
  simp only [given, List.mem_map, List.mem_filter, decide_eq_true_eq]
  constructor
  · rintro ⟨⟨key, _⟩, ⟨hmem, hname⟩, rfl⟩
    exact ⟨key, hmem, hname⟩
  · rintro ⟨key, hmem, hname⟩
    exact ⟨(key, v), ⟨hmem, hname⟩, rfl⟩

namespace SameSettings

variable {others : Entries}

theorem symm (h : SameSettings entries others) : SameSettings others entries :=
  fun name => (h name).symm

theorem known (h : SameSettings entries others) (hentries : ∀ entry ∈ entries, Known entry.1) :
    ∀ entry ∈ others, Known entry.1 := by
  rintro ⟨key, v⟩ hmem
  have hgiven : v ∈ given others (nameOf key.plain) := mem_given.2 ⟨key, hmem, rfl⟩
  rw [← h] at hgiven
  obtain ⟨spelled, hspelled, hname⟩ := mem_given.1 hgiven
  have hknown : Known spelled := hentries (spelled, v) hspelled
  rw [Known, hname] at hknown
  exact hknown

theorem known_iff (h : SameSettings entries others) :
    (∀ entry ∈ entries, Known entry.1) ↔ ∀ entry ∈ others, Known entry.1 :=
  ⟨h.known, h.symm.known⟩

theorem settled_eq (h : SameSettings entries others) :
    settled entries overrides = settled others overrides :=
  funext fun name => by rw [settled, settled, h name]

end SameSettings

/-- The first unknown key is refused. Without one the options are made of the
settled values alone, an override before the last entry of the mapping before the
default, and are what `Built` says. So mappings that say the same give the same
options. -/
theorem options_settled (hnames : ∀ override ∈ overrides, override.1 ∈ names)
    (hdistinct : (overrides.map (·.1)).Nodup) :
    (∀ before key v after, entries = before ++ (key, v) :: after →
      (∀ entry ∈ before, Known entry.1) → ¬Known key →
      ofEntries store entries overrides =
        .error (.option ⟨key.plain, store.quoted v, "a known option"⟩)) ∧
    ((∀ entry ∈ entries, Known entry.1) →
      ofEntries store entries overrides =
        ofValues store (names.map fun name => (name, settled entries overrides name))) ∧
    (∀ o, ofEntries store entries overrides = .ok o ↔
      (∀ entry ∈ entries, Known entry.1) ∧ Built store (settled entries overrides) o) ∧
    ∀ others, SameSettings entries others → ∀ o,
      ofEntries store entries overrides = .ok o ↔ ofEntries store others overrides = .ok o := by
  refine ⟨?_, fun hentries => ?_, fun o => ofEntries_eq_ok hnames hdistinct, ?_⟩
  · rintro before key v after rfl hbefore hkey
    exact ofEntries_unknown hbefore hkey
  · rw [ofEntries_known hentries hnames]
    refine ofValues_congr fun name hname => ?_
    rw [effective_settled hdistinct, effective_table hname]
  · intro others hsame o
    rw [ofEntries_eq_ok hnames hdistinct, ofEntries_eq_ok hnames hdistinct, hsame.known_iff,
      hsame.settled_eq]

/-- Entries that spell one name in two ways and have a time limit that is none. -/
def spelledEntries : Entries :=
  [(.text "Out-Dir", .text "a"), (.text "timeout", .text "soon"), (.text "outDir", .text "b")]

/-- Overrides of which one does not count. -/
def spelledOverrides : List (String × Value) := [("timeout", .scalar (.int 3)), ("host", .null)]

/-- The last spelling counts, and the bad time limit does not. -/
theorem options_settled_of_spellings :
    (∀ override ∈ spelledOverrides, override.1 ∈ names) ∧
    (spelledOverrides.map (·.1)).Nodup ∧
    ofEntries {} spelledEntries spelledOverrides =
      .ok { outDir := ⟨"", ["b"]⟩, timeout := .scalar (.int 3) } := by
  have hnames : ∀ override ∈ spelledOverrides, override.1 ∈ names := by decide
  have hdistinct : (spelledOverrides.map (·.1)).Nodup := by decide
  have hall : spelledEntries.all (fun entry => names.contains (nameOf entry.1.plain)) = true := by
    decide +kernel
  have hknown : ∀ entry ∈ spelledEntries, Known entry.1 := fun entry hmem =>
    List.contains_iff_mem.1 (List.all_eq_true.1 hall entry hmem)
  obtain ⟨-, -, hbuilt, -⟩ := @options_settled {} spelledEntries spelledOverrides hnames hdistinct
  refine ⟨hnames, hdistinct, (hbuilt _).2 ⟨hknown, ?_⟩⟩
  constructor
  case outDir => exact ⟨"b", by decide +kernel, by decide +kernel⟩
  case schemes_list => exact .inl rfl
  case timeout_natural => exact .inr (.inr ⟨3, rfl⟩)
  all_goals decide +kernel

end TypedClient.ClientOptions
