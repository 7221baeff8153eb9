import ToolLint.Rules.Document
import ToolLint.Proofs.Yaml.Encoding

/-!
# Names in rules

What a rule file takes from a document is what the document's scalars stand for.
Every text in a document is UTF-8, and a scalar stands for its own text unless it
is binary. So only a binary scalar can bring a stray byte into the rules. This is
shown for the modules that a base class is used through
(`Rules.encoded_of_mem_subclasses`): these names need not occur in any tool, so
nothing else is known about them when a search expression is made of them.
-/

namespace ToolLint

namespace Rules

open Yaml (Node Tag)

variable {P : Tag → Text → Prop} {n : Node}

/-! ## Entries of a mapping -/

theorem all_resolve (h : n.All P) : (resolve n).All P := by
  induction h with
  | scalar h => exact .scalar h
  | sequence h _ => exact .sequence h
  | mapping keys values _ _ => exact .mapping keys values
  | named _ ih => exact ih

/-- `P` holds of the scalars in the values of mappings. -/
def LayersAll (P : Tag → Text → Prop) (ls : List Layer) : Prop :=
  ∀ l ∈ ls, ∀ e ∈ l, e.2.All P

theorem LayersAll.append {ls more : List Layer} (hls : LayersAll P ls)
    (hmore : LayersAll P more) : LayersAll P (ls ++ more) := by
  intro l hl
  rcases List.mem_append.mp hl with hl | hl
  · exact hls l hl
  · exact hmore l hl

theorem LayersAll.cons {l : Layer} {ls : List Layer} (hl : ∀ e ∈ l, e.2.All P)
    (hls : LayersAll P ls) : LayersAll P (l :: ls) := by
  intro l' hl'
  rcases List.mem_cons.mp hl' with rfl | hl'
  · exact hl
  · exact hls l' hl'

/-- What can be merged from a node: its own mappings, or those of its items. -/
structure Mergeable (P : Tag → Text → Prop) (n : Node) : Prop where
  own {ls : List Layer} (h : layers n = some ls) : LayersAll P ls
  items {line : Nat} {tag : Tag} {items : List Node} {ls : List Layer}
    (hn : n = .sequence line tag items) (h : itemLayers items = some ls) :
    LayersAll P ls

theorem layersAll_itemLayers {items : List Node}
    (h : ∀ n ∈ items, Mergeable P n) {ls : List Layer}
    (hls : itemLayers items = some ls) : LayersAll P ls := by
  induction items generalizing ls with
  | nil =>
      cases hls
      exact fun l hl => by simp at hl
  | cons n rest ih =>
      rw [itemLayers] at hls
      split at hls
      · rename_i first more hfirst hmore
        cases hls
        have hrest := ih (fun m hm => h m (List.mem_cons_of_mem n hm)) hmore
        exact ((h n List.mem_cons_self).own hfirst).append hrest
      · cases hls

theorem layersAll_mergedLayers {pairs : Layer}
    (h : ∀ e ∈ pairs, Mergeable P e.2) {ls : List Layer}
    (hls : mergedLayers pairs = some ls) : LayersAll P ls := by
  induction pairs generalizing ls with
  | nil =>
      cases hls
      exact fun l hl => by simp at hl
  | cons e rest ih =>
      obtain ⟨k, v⟩ := e
      have hv : Mergeable P v := h (k, v) List.mem_cons_self
      have hrest : ∀ {ls}, mergedLayers rest = some ls → LayersAll P ls :=
        fun hls => ih (fun e he => h e (List.mem_cons_of_mem _ he)) hls
      unfold mergedLayers at hls
      split at hls
      · rename_i heq
        cases heq
      · rename_i heq
        cases heq
        split at hls
        · exact hv.items rfl hls
        · exact hrest hls
      · rename_i heq
        cases heq
        split at hls
        · exact hv.own hls
        · exact hrest hls

theorem mergeable_of_all (h : n.All P) : Mergeable P n := by
  induction h with
  | scalar _ => exact ⟨fun h => (by cases h), fun h => (by cases h)⟩
  | sequence _ ih =>
      refine ⟨fun h => (by cases h), fun hn h => ?_⟩
      cases hn
      exact layersAll_itemLayers ih h
  | mapping _ values _ ihvalues =>
      refine ⟨fun h => ?_, fun h => (by cases h)⟩
      rw [layers] at h
      split at h
      · obtain ⟨more, hmore, rfl⟩ := Option.map_eq_some_iff.mp h
        exact .cons values (layersAll_mergedLayers ihvalues hmore)
      · cases h
        exact .cons values fun l hl => by simp at hl
  | named _ ih =>
      exact ⟨fun h => ih.own (by rwa [layers] at h), fun h => (by cases h)⟩

/-- A mapping says this of a name, itself or through one merged into it. -/
def HasEntry (n : Node) (name : Text) (v : Node) : Prop :=
  ∃ line merged, Entry.pair line name v merged ∈ entries (resolve n)

theorem mem_ofLayer {line : Nat} {name : Text} {v : Node} {merged merged' : Bool}
    {l : Layer} (h : .pair line name v merged ∈ Entry.ofLayer merged' l) :
    ∃ e ∈ l, e.2 = v := by
  unfold Entry.ofLayer at h
  split at h
  · obtain ⟨e, he, heq⟩ := List.mem_map.mp h
    refine ⟨e, (List.mem_filter.mp he).1, ?_⟩
    unfold Entry.ofPair at heq
    split at heq
    · exact (Entry.pair.inj heq).2.2.1
    · cases heq
  · simp at h

theorem mem_of_mem_unseen {e : Entry} {seen : List Text} {es : List Entry}
    (h : e ∈ Entry.unseen seen es) : e ∈ es := by
  induction es generalizing seen with
  | nil => exact h
  | cons d es ih =>
      cases d with
      | faulty ps =>
          rcases List.mem_cons.mp h with rfl | h
          · exact List.mem_cons_self
          · exact List.mem_cons_of_mem _ (ih h)
      | pair line name v merged =>
          rw [Entry.unseen] at h
          split at h
          · exact List.mem_cons_of_mem _ (ih h)
          · rcases List.mem_cons.mp h with rfl | h
            · exact List.mem_cons_self
            · exact List.mem_cons_of_mem _ (ih h)

theorem all_of_hasEntry {name : Text} {v : Node} (hn : n.All P)
    (h : HasEntry n name v) : v.All P := by
  obtain ⟨line, merged, hmem⟩ := h
  unfold entries at hmem
  split at hmem
  · simp at hmem
  · simp at hmem
  · rename_i own more hlayers
    have hall := (mergeable_of_all (all_resolve hn)).own hlayers
    rcases List.mem_append.mp hmem with hmem | hmem
    · obtain ⟨e, he, rfl⟩ := mem_ofLayer hmem
      exact hall own List.mem_cons_self e he
    · obtain ⟨l, hl, hmem⟩ := List.mem_flatMap.mp (mem_of_mem_unseen hmem)
      obtain ⟨e, he, rfl⟩ := mem_ofLayer hmem
      exact hall l (List.mem_cons_of_mem _ hl) e he

/-! ## Tables and records -/

/-- A node that has the wrong shape gives no value, but for a scalar that is
nothing. -/
theorem value_of_wrong {α : Type} {null : Decoded α} {wanted : Text} {a : α}
    (h : (wrong null wanted n).value = some a) : null.value = some a := by
  unfold wrong at h
  split at h
  · split at h
    · cases h
    · exact h
    · cases h
  · cases h
  · simp only at h
    split at h
    · cases h
    · cases h
  · cases h

theorem mem_put {α : Type} {t : Table α} {key : Text} {a : α} {e : Text × α}
    (h : e ∈ t.put key a) : e ∈ t ∨ e.2 = a := by
  unfold Table.put at h
  split at h
  · obtain ⟨d, hd, rfl⟩ := List.mem_map.mp h
    split
    · exact Or.inr rfl
    · exact Or.inl hd
  · rcases List.mem_append.mp h with h | h
    · exact Or.inl h
    · obtain rfl := List.mem_singleton.mp h
      exact Or.inr rfl

/-- A table is empty or is made by putting values into it, one entry after the
other. -/
theorem table_induction {α : Type} {Q : Table α → Prop} {wanted : Text} {zero : α}
    {value : Node → Decoded α} {t : Table α} (hnil : Q [])
    (hzero : ∀ t name, Q t → Q (t.put name zero))
    (hput : ∀ t name v a, Q t → HasEntry n name v → (value v).value = some a →
      Q (t.put name a))
    (h : (table wanted zero value n).value = some t) : Q t := by
  unfold table at h
  split at h
  · rename_i line tag pairs hresolve
    obtain rfl := Option.some.inj h
    apply List.foldlRecOn (motive := fun acc : Table α × List Problem => Q acc.1)
    · exact hnil
    · rintro ⟨t, ps⟩ ht e hmem
      cases e with
      | faulty qs => exact ht
      | pair line name v merged =>
          have hentry : HasEntry n name v := ⟨line, merged, hresolve ▸ hmem⟩
          unfold tableStep
          dsimp only
          split
          · rename_i a ha
            exact hput t name v a ht hentry ha
          · split
            · exact hzero t name ht
            · exact ht
  · cases value_of_wrong h
    exact hnil

/-- What holds of every single value holds of all values of a table. -/
theorem table_values {α : Type} {Q : α → Prop} {wanted : Text} {zero : α}
    {value : Node → Decoded α} {t : Table α} (hzero : Q zero)
    (hvalue : ∀ name v a, HasEntry n name v → (value v).value = some a → Q a)
    (h : (table wanted zero value n).value = some t) : ∀ e ∈ t, Q e.2 := by
  have hput : ∀ (t : Table α) name a, Q a → (∀ e ∈ t, Q e.2) →
      ∀ e ∈ t.put name a, Q e.2 := by
    intro t name a ha ht e he
    rcases mem_put he with he | rfl
    · exact ht e he
    · exact ha
  refine table_induction (Q := fun t => ∀ e ∈ t, Q e.2) (by simp) ?_ ?_ h
  · exact fun t name ht => hput t name zero hzero ht
  · exact fun t name v a ht hentry ha =>
      hput t name a (hvalue name v a hentry ha) ht

/-- A field that is set leaves a record of which `Q` holds. -/
def Kept {α : Type} (Q : α → Prop) (o : Option (α × List Problem)) : Prop :=
  ∀ b ps, o = some (b, ps) → Q b

theorem kept_ite {α : Type} {Q : α → Prop} {o o' : Option (α × List Problem)}
    {c : Prop} [Decidable c] (h : Kept Q o) (h' : Kept Q o') :
    Kept Q (if c then o else o') := by
  split
  · exact h
  · exact h'

theorem kept_set {α β : Type} {Q : α → Prop} {a : α} {d : Decoded β}
    {f : α → β → α} (ha : Q a) (hf : ∀ b, d.value = some b → Q (f a b)) :
    Kept Q (set a d f) := by
  intro c ps h
  obtain ⟨rfl, -⟩ := Prod.mk.inj (Option.some.inj h)
  cases hd : d.value with
  | none => exact ha
  | some b => exact hf b hd

/-- What every field keeps holds of the record. -/
theorem record_keeps {α : Type} {Q : α → Prop} {wanted : Text} {start : α}
    {field : Text → Node → α → Option (α × List Problem)} {a : α}
    (hstart : Q start)
    (hfield : ∀ name v a, HasEntry n name v → Q a → Kept Q (field name v a))
    (h : (record wanted start field n).value = some a) : Q a := by
  unfold record at h
  split at h
  · rename_i line tag pairs hresolve
    obtain rfl := Option.some.inj h
    apply List.foldlRecOn (motive := fun acc : α × List Text × List Problem =>
      Q acc.1)
    · exact hstart
    · rintro ⟨a, done, ps⟩ ha e hmem
      cases e with
      | faulty qs => exact ha
      | pair line name v merged =>
          have hentry : HasEntry n name v := ⟨line, merged, hresolve ▸ hmem⟩
          simp only [recordStep]
          split
          · exact ha
          · rename_i hset
            split
            · exact ha
            · exact hfield name v a hentry ha _ _ hset
  · cases value_of_wrong h

/-! ## Values -/

/-- What a scalar stands for is UTF-8. -/
def Legible (tag : Tag) (text : Text) : Prop :=
  ∀ t, tag.value? text = some (some t) → t.IsEncoded

/-- A scalar that is not binary stands for its own text. -/
theorem eq_of_value? {tag : Tag} {text t : Text} (htag : tag ≠ .binary)
    (h : tag.value? text = some (some t)) : t = text := by
  have hfits : ∀ {c : Prop} [Decidable c],
      (if c then some (some text) else none) = some (some t) → t = text := by
    intro c _ h
    split at h
    · cases h
      rfl
    · cases h
  cases tag with
  | binary => exact absurd rfl htag
  | null => simp [Tag.value?] at h
  | bool | int | timestamp | float => exact hfits h
  | merge | str | seq | map | other =>
      cases h
      rfl

theorem encoded_text {t : Text} (hn : n.All Legible)
    (h : (text n).value = some t) : t.IsEncoded := by
  have hresolve := all_resolve hn
  unfold text at h
  split at h
  · rename_i heq
    rw [heq] at hresolve
    cases hresolve with
    | scalar hlegible =>
        split at h
        · cases h
        · cases h
        · rename_i hvalue
          cases h
          exact hlegible _ hvalue
  · cases value_of_wrong h

theorem encoded_texts {ts : List Text} (hn : n.All Legible)
    (h : (texts n).value = some ts) : ∀ t ∈ ts, t.IsEncoded := by
  have hresolve := all_resolve hn
  unfold texts at h
  split at h
  · rename_i heq
    obtain rfl := Option.some.inj h
    rw [heq] at hresolve
    cases hresolve with
    | sequence hitems =>
        intro t ht
        obtain ⟨d, hd, hvalue⟩ := List.mem_filterMap.mp ht
        obtain ⟨item, hitem, rfl⟩ := List.mem_map.mp hd
        exact encoded_text (hitems item hitem) hvalue
  · cases value_of_wrong h
    simp

/-! ## Rule files -/

/-- A rule file that is read from a document has every property that the empty one
has and that reading it keeps. -/
theorem of_decode {Q : RuleFile → Prop} {source : Text} {f : RuleFile}
    (hempty : Q .empty)
    (hfile : ∀ n f, Yaml.document? source = some (some n) →
      (ruleFile n).value = some f → Q f)
    (h : decode source = .ok f) : Q f := by
  unfold decode at h
  split at h
  · cases h
  · cases h
    exact hempty
  · rename_i n hdocument
    simp only at h
    split at h
    · cases h
      cases hvalue : (ruleFile n).value with
      | none => exact hempty
      | some f => exact hfile n f hdocument hvalue
    · split at h
      · cases h
      · cases h

/-- The modules that base classes are used through have names in UTF-8. -/
def SubclassesEncoded (f : RuleFile) : Prop :=
  ∀ e ∈ f.baseClassModules, ∀ t ∈ e.2, t.IsEncoded

theorem subclassesEncoded_empty : SubclassesEncoded .empty := by
  simp [SubclassesEncoded, RuleFile.empty]

theorem subclassesEncoded_ruleFile {f : RuleFile} (hn : n.All Legible)
    (h : (ruleFile n).value = some f) : SubclassesEncoded f := by
  refine record_keeps subclassesEncoded_empty ?_ h
  intro name v f hv hf
  have hlegible := all_of_hasEntry hn hv
  repeat' apply kept_ite
  -- Every field but one leaves the base classes as they are.
  all_goals try exact kept_set hf fun _ _ => hf
  · refine kept_set hf fun t ht => ?_
    refine table_values (Q := fun ts => ∀ t ∈ ts, t.IsEncoded) (by simp)
      (fun name w ts hw hts => ?_) ht
    exact encoded_texts (all_of_hasEntry hlegible hw) hts
  · exact fun _ _ hnone => by cases hnone

theorem decode_of_parse {source : Text} {rules : Rules}
    (h : parse source = .ok rules) : decode source = .ok rules.file := by
  unfold parse at h
  split at h
  · cases h
  · rename_i f hdecode
    split at h
    · cases h
    · rename_i r hfile
      cases h
      unfold ofFile at hfile
      split at hfile
      · cases hfile
      · cases hfile
        exact hdecode

theorem encoded_of_subclassesEncoded {rules : Rules}
    (h : SubclassesEncoded rules.file) {m s : Text}
    (hs : s ∈ rules.subclasses m) : s.IsEncoded := by
  unfold subclasses Table.get? at hs
  cases hlookup : rules.file.baseClassModules.lookup m with
  | none => simp [hlookup] at hs
  | some subs =>
      rw [hlookup] at hs
      obtain ⟨l₁, l₂, htable, -⟩ := List.lookup_eq_some_iff.mp hlookup
      exact h (m, subs) (by rw [htable]; simp) s hs

/-- **Only a binary scalar brings a stray byte into the rules.** Without one the
modules through which a module is used have names in UTF-8. -/
theorem encoded_of_mem_subclasses {source : Text} {rules : Rules}
    (h : parse source = .ok rules)
    (hbinary : ∀ n, Yaml.document? source = some (some n) →
      n.All fun tag _ => tag ≠ .binary)
    {m s : Text} (hs : s ∈ rules.subclasses m) : s.IsEncoded := by
  refine encoded_of_subclassesEncoded ?_ hs
  refine of_decode subclassesEncoded_empty (fun n f hdocument hvalue => ?_)
    (decode_of_parse h)
  have hlegible : n.All Legible := by
    refine (Yaml.encoded_of_document? hdocument).imp ?_ (hbinary n hdocument)
    intro tag text hencoded htag t ht
    rw [eq_of_value? htag ht]
    exact hencoded
  exact subclassesEncoded_ruleFile hlegible hvalue

end Rules

end ToolLint
