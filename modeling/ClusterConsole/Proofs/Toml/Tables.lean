/-
A table is written as a document that is read back as the same table, but with the pairs of every
table in front of the tables inside it (`read_write`); a document that was cut into lines and put
together again is read in the same way (`read_join_lines`).

Statements are carried out on a draft of the whole document, so what they do is followed at a place
in it: `Place` is a table in a draft of which only the fields are left open, and changing the table
at its path changes these fields and nothing else.
-/
import ClusterConsole.Proofs.Toml.Lines

namespace ClusterConsole.Toml

/-! ## Documents that are read back -/

mutual

/-- Whether a value under a key of `n` parts is read back: a value on the line of its key, or a
table or list of tables with such values under distinct keys, not too deep inside each other. -/
def Fits (n : Nat) : Toml → Prop
  | .text _ => True
  | .boolean _ => True
  | .array items => isInline (.array items) = true ∨ n < depthLimit ∧ FitsItems n items
  | .table fields => n < depthLimit ∧ (fields.map Prod.fst).Nodup ∧ FitsFields (n + 1) fields
  | _ => False

/-- Whether every item is a table that is read back under a key of `n` parts. -/
def FitsItems (n : Nat) : List Toml → Prop
  | [] => True
  | .table fields :: items =>
    (fields.map Prod.fst).Nodup ∧ FitsFields (n + 1) fields ∧ FitsItems n items
  | _ :: _ => False

/-- Whether the value of every field is read back under a key of `n` parts. -/
def FitsFields (n : Nat) : List (Text × Toml) → Prop
  | [] => True
  | (_, v) :: fields => Fits n v ∧ FitsFields n fields

end

@[simp]
theorem isSection_text (t : Text) : isSection (.text t) = false := rfl

@[simp]
theorem isSection_boolean (b : Bool) : isSection (.boolean b) = false := rfl

@[simp]
theorem isSection_table (fields : List (Text × Toml)) : isSection (.table fields) = true := rfl

/-- The fields that are not written under headers. -/
def pairsOf (fields : List (Text × Toml)) : List (Text × Toml) :=
  fields.filter fun f => !isSection f.2

mutual

/-- The value with the pairs of every table in front of the tables inside it. -/
def pairsFirst : Toml → Toml
  | .table fields => .table (pairsOf fields ++ sectionsOf fields)
  | .array items => .array (pairsFirstItems items)
  | v => v

/-- Every item with the pairs of its tables in front. -/
def pairsFirstItems : List Toml → List Toml
  | [] => []
  | v :: items => pairsFirst v :: pairsFirstItems items

/-- The fields that are written under headers, with the pairs of their tables in front. -/
def sectionsOf : List (Text × Toml) → List (Text × Toml)
  | [] => []
  | (k, v) :: fields =>
    if isSection v then (k, pairsFirst v) :: sectionsOf fields else sectionsOf fields

end

/-- The fields of a document, with the pairs of every table in front of the tables inside it. -/
def arranged (fields : List (Text × Toml)) : List (Text × Toml) :=
  pairsOf fields ++ sectionsOf fields

theorem all_isTable_of_fitsItems {n : Nat} {items : List Toml} (h : FitsItems n items) :
    items.all isTable = true := by
  match items with
  | [] => rfl
  | .table fields :: items => simpa [isTable] using all_isTable_of_fitsItems h.2.2

theorem isInline_of_fits {n : Nat} {v : Toml} (h : Fits n v) (hv : isSection v = false) :
    isInline v = true := by
  match v with
  | .text _ => rfl
  | .boolean _ => rfl
  | .array items =>
    rcases h with h | ⟨-, h⟩
    · exact h
    · have hnil : items = [] := by
        simpa [isSection, all_isTable_of_fitsItems h] using hv
      rw [hnil]
      rfl
  | .table fields => cases hv

theorem isInline_eq_false {v : Toml} (h : isSection v = true) : isInline v = false := by
  match v with
  | .table _ => rfl
  | .array (v :: items) =>
    cases v with
    | table _ => rfl
    | _ => simp [isSection, isTable] at h

theorem fits_of_mem {n : Nat} {fields : List (Text × Toml)} (h : FitsFields n fields)
    {f : Text × Toml} (hf : f ∈ fields) : Fits n f.2 := by
  induction fields with
  | nil => cases hf
  | cons g fields ih =>
    rcases List.mem_cons.1 hf with rfl | hf
    · exact h.1
    · exact ih h.2 hf

theorem isInline_of_mem_pairs {n : Nat} {fields : List (Text × Toml)} (h : FitsFields n fields) :
    ∀ f ∈ pairsOf fields, isInline f.2 = true := by
  intro f hf
  rw [pairsOf, List.mem_filter, Bool.not_eq_true'] at hf
  exact isInline_of_fits (fits_of_mem h hf.1) hf.2

/-- Under distinct keys, no pair has the key of a section. -/
theorem key_not_mem_pairs {fields : List (Text × Toml)} (h : (fields.map Prod.fst).Nodup)
    {f : Text × Toml} (hf : f ∈ fields) (hsection : isSection f.2 = true) :
    f.1 ∉ (pairsOf fields).map Prod.fst := by
  intro hmem
  obtain ⟨g, hg, hkey⟩ := List.mem_map.1 hmem
  rw [pairsOf, List.mem_filter] at hg
  obtain rfl := List.inj_on_of_nodup_map h hg.1 hf hkey
  simp [hsection] at hg

theorem writeFields_eq_nil_iff {fields : List (Text × Toml)} :
    writeFields fields = [] ↔ fields = [] := by
  cases fields <;> simp [writeFields]

theorem sections_eq_nil {v : Toml} (h : isSection v = false) (path : List Text) :
    sections path v = [] := by
  cases v with
  | array items => simp [sections, h]
  | table fields => cases h
  | _ => rfl

/-! ## Fields of a draft -/

namespace Draft

variable {key : Text} {fields : Fields}

theorem lookup_eq_none (h : key ∉ fields.map Prod.fst) : fields.lookup key = none := by
  rw [List.lookup_eq_none_iff]
  intro f hf
  rw [bne_iff_ne]
  rintro rfl
  exact h (List.mem_map_of_mem hf)

theorem lookup_append_singleton (h : key ∉ fields.map Prod.fst) (d : Draft) :
    (fields ++ [(key, d)]).lookup key = some d := by
  rw [List.lookup_append, lookup_eq_none h]
  simp

theorem put_append (h : key ∉ fields.map Prod.fst) (d : Draft) (rest : Fields) :
    put key d (fields ++ rest) = fields ++ put key d rest := by
  induction fields with
  | nil => rfl
  | cons f fields ih =>
    obtain ⟨k, old⟩ := f
    rw [List.map_cons, List.mem_cons, not_or] at h
    rw [List.cons_append, put, if_neg (Ne.symm h.1), ih h.2]
    rfl

theorem put_new (h : key ∉ fields.map Prod.fst) (d : Draft) :
    put key d fields = fields ++ [(key, d)] := by simpa [put] using put_append h d []

theorem changeAt_append (alongKey : Bool) (change : Origin → Fields → Option Fields)
    (path path' : List Text) (origin : Origin) (fields : Fields) :
    changeAt alongKey change (path ++ path') origin fields =
      changeAt alongKey (changeAt alongKey change path') path origin fields := by
  induction path generalizing origin fields with
  | nil => rfl
  | cons key path ih =>
    rw [List.cons_append, changeAt, changeAt]
    simp only [ih]

/-! ## Places -/

/-- A table in a draft: the draft as a function of the fields of this table. -/
structure Place (path : List Text) where
  within : Fields → Fields
  origin : Origin
  undotted : origin ≠ .dotted
  changes : ∀ change inner,
    changeAt false change path .declared (within inner) = (change origin inner).map within

/-- The fields at a place are the given ones, or the place is yet to be made with them. -/
def Place.Shows {path : List Text} (p : Place path) (all inner : Fields) : Prop :=
  ∀ change, changeAt false change path .declared all = (change p.origin inner).map p.within

theorem Place.shows_within {path : List Text} (p : Place path) (inner : Fields) :
    p.Shows (p.within inner) inner := fun change => p.changes change inner

/-- The document as a whole. -/
def Place.document : Place [] where
  within := id
  origin := .declared
  undotted := by decide
  changes change inner := by simp [changeAt]

theorem changeAt_last (h : key ∉ fields.map Prod.fst) (change : Origin → Fields → Option Fields)
    (outer origin : Origin) (inner : Fields) :
    changeAt false change [key] outer (fields ++ [(key, .table origin inner)]) =
      (change origin inner).map fun inner => fields ++ [(key, .table origin inner)] := by
  rw [changeAt, lookup_append_singleton h]
  cases hchange : change origin inner <;> simp [changeAt, hchange, put_append h, put]

theorem changeAt_last_item (h : key ∉ fields.map Prod.fst)
    (change : Origin → Fields → Option Fields) (outer : Origin) (items : List Fields)
    (inner : Fields) :
    changeAt false change [key] outer (fields ++ [(key, .tables (items ++ [inner]))]) =
      (change .declared inner).map fun inner => fields ++ [(key, .tables (items ++ [inner]))] := by
  rw [changeAt, lookup_append_singleton h]
  cases hchange : change .declared inner <;> simp [changeAt, hchange, put_append h, put]

theorem changeAt_missing (h : key ∉ fields.map Prod.fst)
    (change : Origin → Fields → Option Fields) (outer : Origin) :
    changeAt false change [key] outer fields =
      (change .implied []).map fun inner => fields ++ [(key, .table .implied inner)] := by
  rw [changeAt, lookup_eq_none h]
  cases hchange : change .implied [] <;> simp [changeAt, hchange, put_new h]

/-- The table of a new key. -/
def Place.table {path : List Text} (p : Place path) (h : key ∉ fields.map Prod.fst)
    (origin : Origin) (undotted : origin ≠ .dotted) : Place (path ++ [key]) where
  within inner := p.within (fields ++ [(key, .table origin inner)])
  origin := origin
  undotted := undotted
  changes change inner := by
    rw [changeAt_append, p.changes, changeAt_last h, Option.map_map]
    rfl

/-- The open table in the list of tables of a new key. -/
def Place.item {path : List Text} (p : Place path) (h : key ∉ fields.map Prod.fst)
    (items : List Fields) : Place (path ++ [key]) where
  within inner := p.within (fields ++ [(key, .tables (items ++ [inner]))])
  origin := .declared
  undotted := by decide
  changes change inner := by
    rw [changeAt_append, p.changes, changeAt_last_item h, Option.map_map]
    rfl

/-- A table that is yet to be made has no fields. -/
theorem Place.Shows.missing {path : List Text} {p : Place path} {all : Fields}
    (hall : p.Shows all fields) (h : key ∉ fields.map Prod.fst) :
    (p.table h .implied (by decide)).Shows all [] := by
  intro change
  rw [changeAt_append, hall, changeAt_missing h, Option.map_map]
  rfl

/-! ## Steps -/

variable {path current : List Text} {all : Fields}

theorem step_pair (p : Place path) (h : key ∉ fields.map Prod.fst) (v : Toml) :
    State.step ⟨p.within fields, path⟩ (.pair [] key v) =
      some ⟨p.within (fields ++ [(key, .value v)]), path⟩ := by
  have hadd : addPair [] key v p.origin fields = some (fields ++ [(key, .value v)]) := by
    have hundotted := p.undotted
    simp [addPair, changeAt, hundotted, lookup_eq_none h, put_new h]
  simp [State.step, p.changes, hadd]

theorem step_table {p : Place path} (hall : p.Shows all fields) (h : key ∉ fields.map Prod.fst) :
    State.step ⟨all, current⟩ (.table path key) =
      some ⟨p.within (fields ++ [(key, .table .declared [])]), path ++ [key]⟩ := by
  simp [State.step, hall (openTable key), openTable, lookup_eq_none h, put_new h]

theorem step_item_first {p : Place path} (hall : p.Shows all fields)
    (h : key ∉ fields.map Prod.fst) :
    State.step ⟨all, current⟩ (.item path key) =
      some ⟨p.within (fields ++ [(key, .tables [[]])]), path ++ [key]⟩ := by
  simp [State.step, hall (openItem key), openItem, lookup_eq_none h, put_new h]

theorem step_item_next (p : Place path) (h : key ∉ fields.map Prod.fst) (items : List Fields) :
    State.step ⟨p.within (fields ++ [(key, .tables items)]), current⟩ (.item path key) =
      some ⟨p.within (fields ++ [(key, .tables (items ++ [[]]))]), path ++ [key]⟩ := by
  simp [State.step, p.changes, openItem, lookup_append_singleton h, put_append h, put]

/-! ## Lines on a draft -/

/-- Lines lead from one draft to another. -/
def Leads (s : State) (lines : List Text) (s' : State) : Prop :=
  ∃ sts, SayAll lines sts ∧ sts.foldlM State.step s = some s'

theorem Leads.refl (s : State) : Leads s [] s := ⟨[], .nil, rfl⟩

theorem Leads.cons {s s' s'' : State} {line : Text} {lines : List Text} {st : Statement}
    (hsaid : Says line st) (hstep : s.step st = some s') (h : Leads s' lines s'') :
    Leads s (line :: lines) s'' := by
  obtain ⟨sts, hlines, hfold⟩ := h
  refine ⟨st :: sts, .cons hsaid hlines, ?_⟩
  rw [List.foldlM_cons, hstep]
  exact hfold

theorem Leads.append {s s' s'' : State} {lines lines' : List Text} (h : Leads s lines s')
    (h' : Leads s' lines' s'') : Leads s (lines ++ lines') s'' := by
  obtain ⟨sts, hlines, hfold⟩ := h
  obtain ⟨sts', hlines', hfold'⟩ := h'
  refine ⟨sts ++ sts', hlines.append hlines', ?_⟩
  rw [List.foldlM_append, hfold]
  exact hfold'

theorem leads_blank_iff {s s' : State} {lines : List Text} :
    Leads s ([] :: lines) s' ↔ Leads s lines s' := by
  constructor
  · rintro ⟨sts, hlines, hfold⟩
    cases hlines with
    | blank hlines => exact ⟨sts, hlines, hfold⟩
    | cons hsaid _ =>
      obtain ⟨c, t, heq, -⟩ := hsaid.opens
      cases heq
  · rintro ⟨sts, hlines, hfold⟩
    exact ⟨sts, .blank hlines, hfold⟩

/-- Blocks of lines, with an empty line in front of each. -/
def spread (blocks : List (List Text)) : List Text := blocks.flatMap ([] :: ·)

theorem spread_nil : spread [] = [] := rfl

theorem spread_cons (block : List Text) (blocks : List (List Text)) :
    spread (block :: blocks) = [] :: (block ++ spread blocks) := rfl

theorem spread_append (blocks blocks' : List (List Text)) :
    spread (blocks ++ blocks') = spread blocks ++ spread blocks' := List.flatMap_append

/-- Pairs as fields of a draft. -/
def fieldsOf (pairs : List (Text × Toml)) : Fields := pairs.map fun f => (f.1, .value f.2)

theorem toFields_fieldsOf (pairs : List (Text × Toml)) : toFields (fieldsOf pairs) = pairs := by
  induction pairs with
  | nil => rfl
  | cons f pairs ih =>
    rw [fieldsOf, List.map_cons, toFields, ← fieldsOf, ih]
    rfl

theorem map_fst_fieldsOf (pairs : List (Text × Toml)) :
    (fieldsOf pairs).map Prod.fst = pairs.map Prod.fst := by simp [fieldsOf, Function.comp_def]

/-- Pairs are added to the table at a place. -/
theorem leads_pairs (p : Place path) {pairs : List (Text × Toml)}
    (hinline : ∀ f ∈ pairs, isInline f.2 = true)
    (hkeys : (fields.map Prod.fst ++ pairs.map Prod.fst).Nodup) :
    Leads ⟨p.within fields, path⟩ (writeFields pairs)
      ⟨p.within (fields ++ fieldsOf pairs), path⟩ := by
  induction pairs generalizing fields with
  | nil => simpa [writeFields, fieldsOf] using Leads.refl _
  | cons f pairs ih =>
    obtain ⟨k, v⟩ := f
    obtain ⟨hv, hpairs⟩ := List.forall_mem_cons.1 hinline
    have hk : k ∉ fields.map Prod.fst := fun hmem =>
      List.disjoint_of_nodup_append hkeys hmem List.mem_cons_self
    have hkeys : ((fields ++ [(k, Draft.value v)]).map Prod.fst ++ pairs.map Prod.fst).Nodup := by
      simpa using hkeys
    have ih := ih hpairs hkeys
    rw [List.append_assoc] at ih
    exact .cons (says_pair k hv) (step_pair p hk v) ih

theorem toFields_append (fields fields' : Fields) :
    toFields (fields ++ fields') = toFields fields ++ toFields fields' := by
  induction fields with
  | nil => rfl
  | cons f fields ih => rw [List.cons_append, toFields, toFields, ih, List.cons_append]

theorem key_not_mem_fieldsOf {table : List (Text × Toml)} (hkeys : (table.map Prod.fst).Nodup) :
    ∀ f ∈ table, isSection f.2 = true → f.1 ∉ (fieldsOf (pairsOf table)).map Prod.fst := by
  intro f hf hsection
  rw [map_fst_fieldsOf]
  exact key_not_mem_pairs hkeys hf hsection

/-- A table is filled under its header: first its pairs are added, and then its sections. -/
theorem leads_body (p : Place path) {n : Nat} {table : List (Text × Toml)}
    (hkeys : (table.map Prod.fst).Nodup) (hfits : FitsFields n table) {blocks : List (List Text)}
    (hsections : ∃ ds current', Leads ⟨p.within (fieldsOf (pairsOf table)), path⟩ (spread blocks)
      ⟨p.within (fieldsOf (pairsOf table) ++ ds), current'⟩ ∧ toFields ds = sectionsOf table) :
    ∃ ds current', Leads ⟨p.within [], path⟩ (writePairs table ++ spread blocks)
      ⟨p.within ds, current'⟩ ∧ toFields ds = arranged table := by
  have hpairs : Leads ⟨p.within [], path⟩ (writePairs table)
      ⟨p.within (fieldsOf (pairsOf table)), path⟩ :=
    leads_pairs p (isInline_of_mem_pairs hfits) (hkeys.sublist (List.filter_sublist.map _))
  obtain ⟨ds, current', hleads, hds⟩ := hsections
  refine ⟨fieldsOf (pairsOf table) ++ ds, current', hpairs.append hleads, ?_⟩
  rw [toFields_append, toFields_fieldsOf, hds, arranged]

mutual

/-- The sections of a value put it under its key. -/
theorem leads_section {v : Toml} (hv : isSection v = true) {path : List Text} (p : Place path)
    {all inner : Fields} (hall : p.Shows all inner) {key : Text} (hkey : key ∉ inner.map Prod.fst)
    (hfits : Fits (path.length + 1) v) (current : List Text) :
    ∃ d current', Leads ⟨all, current⟩ (spread (sections (path ++ [key]) v))
      ⟨p.within (inner ++ [(key, d)]), current'⟩ ∧ d.toToml = pairsFirst v := by
  match v with
  | .table fields =>
    obtain ⟨hdepth, hkeys, hfields⟩ := hfits
    have hlength : path.length + 1 + 1 = (path ++ [key]).length + 1 := by simp
    rw [hlength] at hfields
    by_cases hown : writePairs fields = [] ∧ fields ≠ []
    · -- the table has no header, so the first one inside it brings it about
      have hpairs : pairsOf fields = [] := writeFields_eq_nil_iff.1 hown.1
      have hsections : ∃ f ∈ fields, isSection f.2 = true := by
        obtain ⟨f, hf⟩ := List.exists_mem_of_ne_nil fields hown.2
        exact ⟨f, hf, by simpa using List.filter_eq_nil_iff.1 hpairs f hf⟩
      obtain ⟨ds, current', hleads, hds⟩ := leads_fields fields (p.table hkey .implied (by decide))
        (hall.missing hkey) (.inr hsections) hkeys (by simp) hfields current
      refine ⟨.table .implied ds, current', ?_, ?_⟩
      · rw [sections]
        simp only [if_pos hown, List.nil_append]
        exact hleads
      · rw [toToml, hds, pairsFirst, hpairs]
        rfl
    · let q := p.table hkey .declared (by decide)
      obtain ⟨ds, current', hleads, hds⟩ := leads_body q hkeys hfields
        (leads_fields fields q (q.shows_within _) (.inl rfl) hkeys (key_not_mem_fieldsOf hkeys)
          hfields (path ++ [key]))
      refine ⟨.table .declared ds, current', ?_, ?_⟩
      · rw [sections]
        simp only [if_neg hown, List.singleton_append, spread_cons]
        exact leads_blank_iff.2 (.cons (says_table hdepth key) (step_table hall hkey) hleads)
      · rw [toToml, hds, arranged, pairsFirst]
  | .array items =>
    have hne : items ≠ [] := by
      rintro rfl
      cases hv
    obtain ⟨hdepth, hitems⟩ : path.length + 1 < depthLimit ∧ FitsItems (path.length + 1) items := by
      exact hfits.resolve_left (by simp [isInline_eq_false hv])
    obtain ⟨ds, current', hleads, hds⟩ := leads_items items p hkey []
      (fun current => step_item_first hall hkey) hne hdepth hitems current
    refine ⟨.tables ds, current', ?_, ?_⟩
    · simpa [sections, hv] using hleads
    · rw [toToml, hds, pairsFirst]

/-- The sections of fields add those of them that are written under headers. The place may yet have
to be made, as long as there is a section to make it. -/
theorem leads_fields (fields : List (Text × Toml)) {path : List Text} (p : Place path)
    {all inner : Fields} (hall : p.Shows all inner)
    (hstart : all = p.within inner ∨ ∃ f ∈ fields, isSection f.2 = true)
    (hkeys : (fields.map Prod.fst).Nodup)
    (hnew : ∀ f ∈ fields, isSection f.2 = true → f.1 ∉ inner.map Prod.fst)
    (hfits : FitsFields (path.length + 1) fields) (current : List Text) :
    ∃ ds current', Leads ⟨all, current⟩ (spread (sectionsOfFields path fields))
      ⟨p.within (inner ++ ds), current'⟩ ∧ toFields ds = sectionsOf fields := by
  match fields with
  | [] =>
    obtain rfl : all = p.within inner := by simpa using hstart
    exact ⟨[], current, by simpa [sectionsOfFields, spread_nil] using Leads.refl _, rfl⟩
  | (k, v) :: fields =>
    obtain ⟨hk, hkeys⟩ := List.nodup_cons.1 hkeys
    obtain ⟨hv, hnew⟩ := List.forall_mem_cons.1 hnew
    rw [sectionsOfFields, spread_append, sectionsOf]
    by_cases hsection : isSection v = true
    · obtain ⟨d, current₁, hleads, hd⟩ :=
        leads_section hsection p hall (hv hsection) hfits.1 current
      have hnew' : ∀ f ∈ fields, isSection f.2 = true →
          f.1 ∉ (inner ++ [(k, d)]).map Prod.fst := by
        intro f hf hfsection hmem
        rw [List.map_append, List.mem_append] at hmem
        rcases hmem with hmem | hmem
        · exact hnew f hf hfsection hmem
        · have hfk : f.1 = k := by simpa using hmem
          exact hk (List.mem_map.2 ⟨f, hf, hfk⟩)
      obtain ⟨ds, current', hleads', hds⟩ := leads_fields fields p
        (p.shows_within (inner ++ [(k, d)])) (.inl rfl) hkeys hnew' hfits.2 current₁
      refine ⟨(k, d) :: ds, current', ?_, ?_⟩
      · rw [List.append_assoc] at hleads'
        exact hleads.append hleads'
      · rw [toFields, hd, hds, if_pos hsection]
    · have hstart : all = p.within inner ∨ ∃ f ∈ fields, isSection f.2 = true := by
        simpa [hsection] using hstart
      obtain ⟨ds, current', hleads, hds⟩ :=
        leads_fields fields p hall hstart hkeys hnew hfits.2 current
      refine ⟨ds, current', ?_, ?_⟩
      · rw [sections_eq_nil (by simpa using hsection)]
        exact hleads
      · rw [hds, if_neg hsection]

/-- The sections of items add them to a list of tables that takes another one. -/
theorem leads_items (items : List Toml) {path : List Text} (p : Place path)
    {all inner : Fields} {key : Text} (hkey : key ∉ inner.map Prod.fst) (before : List Fields)
    (hopen : ∀ current, State.step ⟨all, current⟩ (.item path key) =
      some ⟨p.within (inner ++ [(key, .tables (before ++ [[]]))]), path ++ [key]⟩)
    (hitems : items ≠ []) (hdepth : path.length + 1 < depthLimit)
    (hfits : FitsItems (path.length + 1) items) (current : List Text) :
    ∃ ds current', Leads ⟨all, current⟩ (spread (sectionsOfItems (path ++ [key]) items))
      ⟨p.within (inner ++ [(key, .tables (before ++ ds))]), current'⟩ ∧
        toItems ds = pairsFirstItems items := by
  match items with
  | [] => exact absurd rfl hitems
  | .table fields :: items =>
    obtain ⟨hkeys, hfields, hrest⟩ := hfits
    have hlength : path.length + 1 + 1 = (path ++ [key]).length + 1 := by simp
    rw [hlength] at hfields
    let q := p.item hkey before
    obtain ⟨ds, current₁, hleads, hds⟩ := leads_body q hkeys hfields
      (leads_fields fields q (q.shows_within _) (.inl rfl) hkeys (key_not_mem_fieldsOf hkeys)
        hfields (path ++ [key]))
    have hitem : Leads ⟨all, current⟩
        (spread ((("[[" ++ writeKey (path ++ [key]) ++ "]]") :: writePairs fields) ::
          sectionsOfFields (path ++ [key]) fields)) ⟨q.within ds, current₁⟩ :=
      leads_blank_iff.2 (.cons (says_item hdepth key) (hopen current) hleads)
    have htable : .table (toFields ds) = pairsFirst (.table fields) := by
      rw [hds, arranged, pairsFirst]
    rw [sectionsOfItems, ← List.cons_append, spread_append, pairsFirstItems]
    by_cases hnil : items = []
    · subst hnil
      refine ⟨[ds], current₁, ?_, ?_⟩
      · rw [sectionsOfItems, spread_nil, List.append_nil]
        exact hitem
      · rw [toItems, htable]
        rfl
    · obtain ⟨es, current', hleads', hes⟩ := leads_items items p hkey
        (before ++ [ds]) (fun current => step_item_next p hkey _) hnil hdepth hrest current₁
      refine ⟨ds :: es, current', ?_, ?_⟩
      · rw [List.append_assoc] at hleads'
        exact hitem.append hleads'
      · rw [toItems, htable, hes]

end

end Draft

/-! ## Whole documents -/

open Draft

/-- The blocks of lines of a document: its pairs, and its sections. -/
def blocks (fields : List (Text × Toml)) : List (List Text) :=
  (if writePairs fields = [] then [] else [writePairs fields]) ++ sectionsOfFields [] fields

theorem flatMap_append_join (block : List Text) {lines : List Text} (h : lines ≠ []) :
    block.flatMap (· ++ ['\n']) ++ Text.join "\n" lines = Text.join "\n" (block ++ lines) := by
  induction block with
  | nil => rfl
  | cons line block ih =>
    rw [List.flatMap_cons, List.append_assoc, ih, List.cons_append,
      Text.join_cons_of_ne_nil (List.append_ne_nil_of_right_ne_nil block h)]
    simp

/-- Blocks with an empty line between neighbours are lines with an empty one at the end. -/
theorem join_blocks (blocks : List (List Text)) :
    Text.join "\n" (blocks.map fun lines => lines.flatMap (· ++ ['\n'])) =
      Text.join "\n" ((spread blocks).tail ++ [[]]) := by
  match blocks with
  | [] => rfl
  | [block] =>
    have hjoin := flatMap_append_join block (List.cons_ne_nil [] [])
    simpa [spread_cons, spread_nil, Text.join] using hjoin
  | block :: next :: blocks =>
    have ih := join_blocks (next :: blocks)
    have hjoin := flatMap_append_join block
      (List.cons_ne_nil [] ((spread (next :: blocks)).tail ++ [[]]))
    rw [Text.join_cons_of_ne_nil (by simp), List.nil_append] at hjoin
    rw [List.map_cons, Text.join_cons_of_ne_nil (by simp), ih, hjoin]
    simp [spread_cons]

theorem leads_tail {s s' : State} {blocks : List (List Text)} (h : Leads s (spread blocks) s') :
    Leads s (spread blocks).tail s' := by
  cases blocks with
  | nil => exact h
  | cons block blocks => exact leads_blank_iff.1 h

theorem leads_blocks {fields : List (Text × Toml)} (hkeys : (fields.map Prod.fst).Nodup)
    (hfits : FitsFields 1 fields) :
    ∃ ds current, Leads {} (spread (blocks fields)) ⟨ds, current⟩ ∧
      toFields ds = arranged fields := by
  obtain ⟨ds, current, hleads, hds⟩ := leads_body Place.document hkeys hfits
    (leads_fields fields Place.document (Place.document.shows_within _) (.inl rfl) hkeys
      (key_not_mem_fieldsOf hkeys) hfits [])
  refine ⟨ds, current, ?_, hds⟩
  unfold blocks
  split_ifs with h
  · rw [h] at hleads
    exact hleads
  · exact leads_blank_iff.2 hleads

/-- A document consists of lines that say what stands in its table. -/
theorem exists_lines {fields : List (Text × Toml)} (hkeys : (fields.map Prod.fst).Nodup)
    (hfits : FitsFields 1 fields) :
    ∃ lines sts, write fields = Text.join "\n" (lines ++ [[]]) ∧ SayAll lines sts ∧
      ofStatements sts = some (arranged fields) := by
  obtain ⟨ds, current, hleads, hds⟩ := leads_blocks hkeys hfits
  obtain ⟨sts, hsaid, hfold⟩ := leads_tail hleads
  refine ⟨(spread (blocks fields)).tail, sts, join_blocks (blocks fields), hsaid, ?_⟩
  simp [ofStatements, hfold, hds]

/-- A table of texts, truth values, arrays of these, and tables and lists of tables of the same kind
is written as a document that is read back as the same table. -/
theorem read_write {fields : List (Text × Toml)} (hkeys : (fields.map Prod.fst).Nodup)
    (hfits : FitsFields 1 fields) : read (write fields) = some (arranged fields) := by
  obtain ⟨lines, sts, hwrite, hsaid, hsts⟩ := exists_lines hkeys hfits
  have hread := statements_join (hsaid.append (.blank .nil))
  rw [read, hwrite, hread]
  simpa using hsts

/-- The same holds of the lines of the document, put together again. -/
theorem read_join_lines {fields : List (Text × Toml)} (hkeys : (fields.map Prod.fst).Nodup)
    (hfits : FitsFields 1 fields) :
    read (Text.join "\n" (Text.lines (write fields))) = some (arranged fields) := by
  obtain ⟨lines, sts, hwrite, hsaid, hsts⟩ := exists_lines hkeys hfits
  rw [read, hwrite, statements_join_lines hsaid]
  exact hsts

/-- The lines of a document make it up again when each of them is ended. -/
theorem flatMap_lines_write {fields : List (Text × Toml)} (hkeys : (fields.map Prod.fst).Nodup)
    (hfits : FitsFields 1 fields) :
    (Text.lines (write fields)).flatMap (· ++ ['\n']) = write fields := by
  obtain ⟨lines, sts, hwrite, hsaid, -⟩ := exists_lines hkeys hfits
  rw [hwrite]
  by_cases hlines : lines = []
  · subst hlines
    rfl
  · rw [Text.join_append_blank hlines, Text.flatMap_lines hsaid.clean]

end ClusterConsole.Toml
