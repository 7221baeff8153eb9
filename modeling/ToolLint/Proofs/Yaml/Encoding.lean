import ToolLint.Yaml.Node
import ToolLint.Proofs.Text.Pieces

/-!
# Texts of a document

A document is read as characters, so every text in it is the UTF-8 form of some
characters, also where an escape in it stands for one. The functions that read
nodes call each other; `Sound` says of all of them at once what they keep, there
is one step lemma for each of them, and `sound` puts the steps together.
-/

namespace ToolLint

namespace Yaml

/-! ## Scalars of a node -/

/-- `P` holds of the tag and the text of each scalar in a node. -/
inductive Node.All (P : Tag → Text → Prop) : Node → Prop where
  | scalar {line : Nat} {tag : Tag} {text : Text} (h : P tag text) :
      All P (.scalar line tag text)
  | sequence {line : Nat} {tag : Tag} {items : List Node}
      (h : ∀ n ∈ items, All P n) : All P (.sequence line tag items)
  | mapping {line : Nat} {tag : Tag} {pairs : List (Node × Node)}
      (keys : ∀ e ∈ pairs, All P e.1) (values : ∀ e ∈ pairs, All P e.2) :
      All P (.mapping line tag pairs)
  | named {line : Nat} {name : Text} {target : Node} (h : All P target) :
      All P (.alias line name target)

theorem Node.All.imp {P Q R : Tag → Text → Prop} {n : Node} (hP : n.All P)
    (h : ∀ tag text, P tag text → Q tag text → R tag text) (hQ : n.All Q) :
    n.All R := by
  induction hP with
  | scalar hP =>
      cases hQ with
      | scalar hQ => exact .scalar (h _ _ hP hQ)
  | sequence _ ih =>
      cases hQ with
      | sequence hQ => exact .sequence fun n hn => ih n hn (hQ n hn)
  | mapping _ _ ihkeys ihvalues =>
      cases hQ with
      | mapping keys values =>
          exact .mapping (fun e he => ihkeys e he (keys e he))
            fun e he => ihvalues e he (values e he)
  | named _ ih =>
      cases hQ with
      | named hQ => exact .named (ih hQ)

abbrev Node.Encoded : Node → Prop := Node.All fun _ text => text.IsEncoded

def ItemsEncoded (ns : List Node) : Prop := ∀ n ∈ ns, n.Encoded

def PairsEncoded (ps : List (Node × Node)) : Prop :=
  ∀ e ∈ ps, e.1.Encoded ∧ e.2.Encoded

/-- The nodes that can be named are encoded. -/
def Reading.AnchorsEncoded (r : Reading) : Prop :=
  ∀ e ∈ r.anchors, ∀ n, e.2 = some n → n.Encoded

/-- What is read satisfies `Q`, and the anchors stay encoded. -/
def Keeps {α : Type} (Q : α → Prop) (f : Read α) : Prop :=
  ∀ {r : Reading} {a : α} {s : Reading},
    r.AnchorsEncoded → f r = some (a, s) → Q a ∧ s.AnchorsEncoded

/-! ## Parts -/

theorem encoded_scalarNode (m : Mark) (tag : Option Text) (cs : List Char)
    (plain : Bool) : (scalarNode m tag (cs.flatMap encodeChar) plain).Encoded :=
  .scalar ⟨cs, rfl⟩

theorem encoded_emptyNode (m : Mark) : (emptyNode m).Encoded :=
  encoded_scalarNode m none [] true

theorem itemsEncoded_cons {n : Node} {ns : List Node} (hn : n.Encoded)
    (hns : ItemsEncoded ns) : ItemsEncoded (n :: ns) := by
  intro m hm
  rcases List.mem_cons.mp hm with rfl | hm
  · exact hn
  · exact hns m hm

theorem itemsEncoded_reverse {ns : List Node} (h : ItemsEncoded ns) :
    ItemsEncoded ns.reverse :=
  fun n hn => h n (List.mem_reverse.mp hn)

theorem pairsEncoded_cons {k v : Node} {ps : List (Node × Node)} (hk : k.Encoded)
    (hv : v.Encoded) (hps : PairsEncoded ps) : PairsEncoded ((k, v) :: ps) := by
  intro e he
  rcases List.mem_cons.mp he with rfl | he
  · exact ⟨hk, hv⟩
  · exact hps e he

theorem pairsEncoded_reverse {ps : List (Node × Node)} (h : PairsEncoded ps) :
    PairsEncoded ps.reverse :=
  fun e he => h e (List.mem_reverse.mp he)

theorem PairsEncoded.mapping {ps : List (Node × Node)} (h : PairsEncoded ps)
    (line : Nat) (tag : Tag) : (Node.mapping line tag ps).Encoded :=
  .mapping (fun e he => (h e he).1) fun e he => (h e he).2

namespace Reading.AnchorsEncoded

variable {r : Reading}

theorem skip (h : r.AnchorsEncoded) : r.skip.AnchorsEncoded := h

theorem skipUnless (h : r.AnchorsEncoded) (first : Bool) :
    (if first = true then r else r.skip).AnchorsEncoded := by
  split
  · exact h
  · exact h.skip

/-- A node that has only begun is not there yet. -/
theorem begin (h : r.AnchorsEncoded) (anchor : Option (List Char)) :
    (r.begin anchor).AnchorsEncoded := by
  cases anchor with
  | none => exact h
  | some a =>
      intro e he n hn
      rcases List.mem_append.mp he with he | he
      · exact h e he n hn
      · obtain rfl := List.mem_singleton.mp he
        cases hn

theorem named? (h : r.AnchorsEncoded) {name : List Char} {n : Node}
    (hn : r.named? name = some n) : n.Encoded := by
  obtain ⟨entry, hlookup, rfl⟩ : ∃ entry,
      r.anchors.reverse.lookup name = some entry ∧ entry = some n := by
    cases hlookup : r.anchors.reverse.lookup name with
    | none => simp [Reading.named?, hlookup] at hn
    | some entry =>
        exact ⟨entry, rfl, by simpa [Reading.named?, hlookup] using hn⟩
  obtain ⟨l₁, l₂, hanchors, -⟩ := List.lookup_eq_some_iff.mp hlookup
  have hmem : (name, some n) ∈ r.anchors.reverse := by
    rw [hanchors]
    simp
  exact h (name, some n) (List.mem_reverse.mp hmem) n rfl

end Reading.AnchorsEncoded

theorem readProperties_keeps {p : Properties} {r s : Reading}
    (hr : r.AnchorsEncoded) (h : readProperties r = some (p, s)) :
    s.AnchorsEncoded := by
  have hanchors : s.anchors = r.anchors := by
    unfold readProperties at h
    split at h
    · split at h
      · obtain ⟨_, -, heq⟩ := Option.map_eq_some_iff.mp h
        cases heq
        rfl
      · cases h
        rfl
    · obtain ⟨_, -, heq⟩ := Option.map_eq_some_iff.mp h
      split at heq
      · cases heq
        rfl
      · cases heq
        rfl
    · cases h
      rfl
  intro e he
  rw [hanchors] at he
  exact hr e he

theorem bindAnchor_keeps {anchor : Option (List Char)} {place : Nat}
    {n m : Node} {r s : Reading} (hn : n.Encoded) (hr : r.AnchorsEncoded)
    (h : bindAnchor anchor place n r = (m, s)) :
    m.Encoded ∧ s.AnchorsEncoded := by
  cases anchor with
  | none =>
      obtain ⟨rfl, rfl⟩ := Prod.mk.inj h
      exact ⟨hn, hr⟩
  | some a =>
      obtain ⟨rfl, rfl⟩ := Prod.mk.inj h
      refine ⟨hn, ?_⟩
      intro e he k hk
      rcases List.mem_or_eq_of_mem_set he with he | rfl
      · exact hr e he k hk
      · cases hk
        exact hn

/-- A node that is made of what was read, and given its anchor. -/
theorem keeps_of_map {α : Type} {Q : α → Prop} {f : Read α} (hf : Keeps Q f)
    {build : α → Node} (hbuild : ∀ a, Q a → (build a).Encoded)
    {anchor : Option (List Char)} {place : Nat} {r s : Reading} {n : Node}
    (hr : r.AnchorsEncoded)
    (h : ((f r).map fun (a, r) => bindAnchor anchor place (build a) r) =
      some (n, s)) :
    n.Encoded ∧ s.AnchorsEncoded := by
  obtain ⟨⟨a, t⟩, hread, hbind⟩ := Option.map_eq_some_iff.mp h
  obtain ⟨ha, ht⟩ := hf hr hread
  exact bindAnchor_keeps (hbuild a ha) ht hbind

/-! ## Steps -/

/-- What reading with so much fuel keeps. -/
structure Sound (fuel : Nat) : Prop where
  node (position : Position) : Keeps Node.Encoded (readNode fuel position)
  content (position : Position) (p : Properties) (m : Mark) :
    Keeps Node.Encoded (readContent fuel position p m)
  items (indented : Bool) {done : List Node} (hdone : ItemsEncoded done) :
    Keeps ItemsEncoded (readItems fuel indented done)
  pairs {done : List (Node × Node)} (hdone : PairsEncoded done) :
    Keeps PairsEncoded (readPairs fuel done)
  blockPart (m : Mark) : Keeps Node.Encoded (readBlockPart fuel m)
  flowItems (first : Bool) {done : List Node} (hdone : ItemsEncoded done) :
    Keeps ItemsEncoded (readFlowItems fuel first done)
  flowKey : Keeps Node.Encoded (readFlowKey fuel)
  flowValue (close : TokenKind) : Keeps Node.Encoded (readFlowValue fuel close)
  flowPairs (first : Bool) {done : List (Node × Node)}
    (hdone : PairsEncoded done) :
    Keeps PairsEncoded (readFlowPairs fuel first done)

variable {fuel : Nat}

theorem Sound.node_succ (ih : Sound fuel) (position : Position) :
    Keeps Node.Encoded (readNode (fuel + 1) position) := by
  intro r n s hr h
  rw [readNode] at h
  split at h
  · cases h
  · split at h
    · -- An alias repeats a node that was read before it.
      obtain ⟨m, hnamed, heq⟩ := Option.map_eq_some_iff.mp h
      obtain ⟨rfl, rfl⟩ := Prod.mk.inj heq
      exact ⟨.named (hr.named? hnamed), hr.skip⟩
    · split at h
      · cases h
      · rename_i hproperties
        exact ih.content position _ _ (readProperties_keeps hr hproperties) h

theorem Sound.content_succ (ih : Sound fuel) (position : Position)
    (p : Properties) (m : Mark) :
    Keeps Node.Encoded (readContent (fuel + 1) position p m) := by
  intro r n s hr h
  rw [readContent] at h
  split at h
  · cases h
  · simp only at h
    have hbegin := hr.begin p.anchor
    have hnil : ItemsEncoded [] := fun n hn => by simp at hn
    have hnilPairs : PairsEncoded [] := fun e he => by simp at he
    split at h
    · exact bindAnchor_keeps (encoded_scalarNode m p.tag _ _) hbegin.skip
        (Option.some.inj h)
    · exact keeps_of_map (ih.flowItems true hnil) (fun a ha => .sequence ha)
        hbegin.skip h
    · exact keeps_of_map (ih.flowPairs true hnilPairs)
        (fun a ha => ha.mapping _ _)
        hbegin.skip h
    · exact keeps_of_map (ih.items false hnil) (fun a ha => .sequence ha) hbegin h
    · exact keeps_of_map (ih.items true hnil) (fun a ha => .sequence ha)
        hbegin.skip h
    · exact keeps_of_map (ih.items true hnil) (fun a ha => .sequence ha)
        hbegin.skip h
    · exact keeps_of_map (ih.pairs hnilPairs) (fun a ha => ha.mapping _ _)
        hbegin.skip h
    · exact keeps_of_map (ih.pairs hnilPairs) (fun a ha => ha.mapping _ _)
        hbegin.skip h
    · split at h
      · exact bindAnchor_keeps (encoded_scalarNode m p.tag [] true) hbegin
          (Option.some.inj h)
      · cases h

theorem Sound.items_succ (ih : Sound fuel) (indented : Bool) {done : List Node}
    (hdone : ItemsEncoded done) :
    Keeps ItemsEncoded (readItems (fuel + 1) indented done) := by
  intro r ns s hr h
  rw [readItems] at h
  split at h
  · cases h
  · split at h
    · simp only at h
      split at h
      · cases h
      · split at h
        · exact ih.items indented
            (itemsEncoded_cons (encoded_emptyNode _) hdone) hr.skip h
        · split at h
          · cases h
          · rename_i n t hnode
            obtain ⟨hn, ht⟩ := ih.node .block hr.skip hnode
            exact ih.items indented (itemsEncoded_cons hn hdone) ht h
    · split at h
      · cases h
        exact ⟨itemsEncoded_reverse hdone, hr⟩
      · split at h
        · cases h
          exact ⟨itemsEncoded_reverse hdone, hr.skip⟩
        · cases h

theorem Sound.pairs_succ (ih : Sound fuel) {done : List (Node × Node)}
    (hdone : PairsEncoded done) :
    Keeps PairsEncoded (readPairs (fuel + 1) done) := by
  intro r ps s hr h
  rw [readPairs] at h
  split at h
  · cases h
  · split at h
    · cases h
      exact ⟨pairsEncoded_reverse hdone, hr.skip⟩
    · split at h
      · split at h
        · cases h
        · rename_i k t hkey
          obtain ⟨hk, ht⟩ := ih.blockPart _ hr.skip hkey
          split at h
          · cases h
          · split at h
            · split at h
              · cases h
              · rename_i v u hvalue
                obtain ⟨hv, hu⟩ := ih.blockPart _ ht.skip hvalue
                exact ih.pairs (pairsEncoded_cons hk hv hdone) hu h
            · exact ih.pairs
                (pairsEncoded_cons hk (encoded_emptyNode _) hdone) ht h
      · cases h

theorem Sound.blockPart_succ (ih : Sound fuel) (m : Mark) :
    Keeps Node.Encoded (readBlockPart (fuel + 1) m) := by
  intro r n s hr h
  rw [readBlockPart] at h
  split at h
  · cases h
  · split at h
    · cases h
      exact ⟨encoded_emptyNode m, hr⟩
    · exact ih.node .blockValue hr h

theorem Sound.flowItems_succ (ih : Sound fuel) (first : Bool) {done : List Node}
    (hdone : ItemsEncoded done) :
    Keeps ItemsEncoded (readFlowItems (fuel + 1) first done) := by
  intro r ns s hr h
  rw [readFlowItems] at h
  split at h
  · cases h
  · split at h
    · cases h
      exact ⟨itemsEncoded_reverse hdone, hr.skip⟩
    · split at h
      · cases h
      · simp only at h
        have hcomma := hr.skipUnless first
        generalize (if first = true then r else r.skip) = t at h hcomma
        split at h
        · cases h
        · split at h
          · cases h
            exact ⟨itemsEncoded_reverse hdone, hcomma.skip⟩
          · split at h
            · split at h
              · cases h
              · rename_i k u hkey
                obtain ⟨hk, hu⟩ := ih.flowKey hcomma.skip hkey
                split at h
                · cases h
                · rename_i v w hvalue
                  obtain ⟨hv, hw⟩ := ih.flowValue _ hu hvalue
                  have hpair : PairsEncoded [(k, v)] :=
                    pairsEncoded_cons hk hv fun e he => by simp at he
                  exact ih.flowItems false
                    (itemsEncoded_cons (hpair.mapping _ _) hdone) hw h
            · split at h
              · cases h
              · rename_i n u hnode
                obtain ⟨hn, hu⟩ := ih.node .flow hcomma hnode
                exact ih.flowItems false (itemsEncoded_cons hn hdone) hu h

theorem Sound.flowKey_succ (ih : Sound fuel) :
    Keeps Node.Encoded (readFlowKey (fuel + 1)) := by
  intro r n s hr h
  rw [readFlowKey] at h
  split at h
  · cases h
  · split at h
    · cases h
      exact ⟨encoded_emptyNode _, hr.skip⟩
    · exact ih.node .flow hr h

theorem Sound.flowValue_succ (ih : Sound fuel) (close : TokenKind) :
    Keeps Node.Encoded (readFlowValue (fuel + 1) close) := by
  intro r n s hr h
  rw [readFlowValue] at h
  split at h
  · cases h
  · split at h
    · simp only at h
      split at h
      · cases h
      · split at h
        · cases h
          exact ⟨encoded_emptyNode _, hr.skip⟩
        · exact ih.node .flow hr.skip h
    · cases h
      exact ⟨encoded_emptyNode _, hr⟩

theorem Sound.flowPairs_succ (ih : Sound fuel) (first : Bool)
    {done : List (Node × Node)} (hdone : PairsEncoded done) :
    Keeps PairsEncoded (readFlowPairs (fuel + 1) first done) := by
  intro r ps s hr h
  rw [readFlowPairs] at h
  split at h
  · cases h
  · split at h
    · cases h
      exact ⟨pairsEncoded_reverse hdone, hr.skip⟩
    · split at h
      · cases h
      · simp only at h
        have hcomma := hr.skipUnless first
        generalize (if first = true then r else r.skip) = t at h hcomma
        split at h
        · cases h
        · split at h
          · cases h
            exact ⟨pairsEncoded_reverse hdone, hcomma.skip⟩
          · split at h
            · split at h
              · cases h
              · split at h
                · cases h
                · rename_i k u hkey
                  have hk : k.Encoded ∧ u.AnchorsEncoded := by
                    split at hkey
                    · cases hkey
                      exact ⟨encoded_emptyNode _, hcomma.skip⟩
                    · exact ih.node .flow hcomma.skip hkey
                  split at h
                  · cases h
                  · rename_i v w hvalue
                    obtain ⟨hv, hw⟩ := ih.flowValue _ hk.2 hvalue
                    exact ih.flowPairs false
                      (pairsEncoded_cons hk.1 hv hdone) hw h
            · split at h
              · cases h
              · rename_i k u hnode
                obtain ⟨hk, hu⟩ := ih.node .flow hcomma hnode
                split at h
                · cases h
                · exact ih.flowPairs false
                    (pairsEncoded_cons hk (encoded_emptyNode _) hdone) hu h

/-! ## All of a document -/

/-- Nothing but encoded nodes is read. -/
theorem sound (fuel : Nat) : Sound fuel := by
  induction fuel with
  | zero => constructor <;> intros <;> intro r a s _ h <;> cases h
  | succ fuel ih =>
      exact ⟨ih.node_succ, ih.content_succ, ih.items_succ, ih.pairs_succ,
        ih.blockPart_succ,
        ih.flowItems_succ, ih.flowKey_succ, ih.flowValue_succ, ih.flowPairs_succ⟩

theorem readDirectives_keeps {versioned : Bool} {r s : Reading}
    (h : readDirectives fuel versioned r = some s) : s.anchors = r.anchors := by
  induction fuel generalizing versioned r with
  | zero => cases h
  | succ fuel ih =>
      rw [readDirectives] at h
      split at h
      · cases h
      · split at h
        · split at h
          · cases h
          · have hrest := ih h
            exact hrest
        · split at h
          · cases h
          · have hrest := ih h
            exact hrest
        · cases h
          rfl

theorem encoded_of_readDocument {r : Reading} {n : Node} (hr : r.AnchorsEncoded)
    (h : readDocument fuel r = some (some n)) : n.Encoded := by
  unfold readDocument at h
  split at h
  · rename_i first t hfirst hdirectives
    have ht : t.AnchorsEncoded := by
      intro e he
      rw [readDirectives_keeps hdirectives] at he
      exact hr e he
    split at h
    · cases h
    · simp only at h
      split at h
      · cases h
      · rename_i m s hnode
        obtain ⟨-, -, rfl⟩ := Option.map_eq_some_iff.mp h
        have hread : ∀ {u : Reading}, u.AnchorsEncoded →
            ((readNode fuel .block u).map fun e => (some e.1, e.2)) =
              some (some n, s) → n.Encoded := by
          intro u hu hmap
          obtain ⟨⟨k, v⟩, hk, heq⟩ := Option.map_eq_some_iff.mp hmap
          cases heq
          exact ((sound fuel).node .block hu hk).1
        split at hnode
        · split at hnode
          · cases hnode
          · split at hnode
            · cases hnode
              exact encoded_emptyNode _
            · exact hread ht.skip hnode
        · split at hnode
          · cases hnode
          · split at hnode
            · cases hnode
            · exact hread ht hnode
  · cases h

/-- **Every text in a document is UTF-8.** -/
theorem encoded_of_document? {source : Text} {n : Node}
    (h : document? source = some (some n)) : n.Encoded := by
  unfold document? at h
  split at h
  · cases h
  · split at h
    · cases h
    · exact encoded_of_readDocument (fun e he => by simp at he) h

end Yaml

end ToolLint
