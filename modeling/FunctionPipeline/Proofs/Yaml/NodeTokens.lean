import FunctionPipeline.Proofs.Yaml.Nodes
import FunctionPipeline.Yaml.Document

/-!
The tokens of a simple document are read to a node that shows it. The fuel that a rule needs is the
number of tokens it takes, and a little more where one rule hands on to the next. So documents whose
texts are kept come back from their text.
-/

namespace FunctionPipeline.Yaml

namespace Node

variable {handles : Handles}

/-- The first token of a value begins a node. -/
theorem valueTokens_head (b : Bool) (v : Value) : ∃ t ts, valueTokens b v = t :: ts ∧
    t ≠ .blockEnd ∧ t ≠ .key ∧ t ≠ .value ∧ (b = false → t ≠ .blockEntry) := by
  cases v with
  | sequence access items =>
      cases items with
      | nil => exact ⟨_, _, rfl, by simp, by simp, by simp, fun _ => by simp⟩
      | cons x xs =>
          cases b with
          | false =>
              exact ⟨.blockSequenceStart, _, rfl, by simp, by simp, by simp, fun _ => by simp⟩
          | true =>
              exact ⟨.blockEntry, _, rfl, by simp, by simp, by simp, fun h => by cases h⟩
  | mapping access entries =>
      cases entries with
      | nil => exact ⟨_, _, rfl, by simp, by simp, by simp, fun _ => by simp⟩
      | cons e es => exact ⟨.blockMappingStart, _, rfl, by simp, by simp, by simp, fun _ => by simp⟩
  | str s => exact ⟨_, _, rfl, by simp [textToken], by simp [textToken], by simp [textToken],
      fun _ => by simp [textToken]⟩
  | _ => exact ⟨_, _, rfl, by simp, by simp, by simp, fun _ => by simp⟩

def Parses (handles : Handles) (v : Value) : Prop :=
  ∀ (allowed : Allowed) {fuel : Nat} (rest : List Token), allowed ≠ .flow →
    (valueTokens false v).length ≤ fuel →
    ∃ node, Shows node v ∧
      ofFront handles allowed fuel (valueTokens false v ++ rest) = .ok (node, rest)

/-- A value is read after a key on one line; what follows is no item. -/
def ParsesBelow (handles : Handles) (v : Value) : Prop :=
  ∀ {fuel : Nat} (rest : List Token), (∀ ts, rest ≠ .blockEntry :: ts) →
    (valueTokens true v).length + 2 ≤ fuel →
    ∃ node, Shows node v ∧
      ofFront handles .blockOrIndentless fuel (valueTokens true v ++ rest) = .ok (node, rest)

theorem parses_text (s : String) (place : Place) (allowed : Allowed) (fuel : Nat)
    (rest : List Token) :
    ofFront handles allowed (fuel + 1) (textToken place s.toList :: rest) =
      .ok (.scalar none .str (rest.length + 1) s.toList, rest) := by
  have htag : Properties.none.scalarTag (chooseStyle place s.toList == .plain) s.toList = .str := by
    unfold Properties.scalarTag Properties.none
    simp only
    split
    · next hplain => exact (readsPlainly_of_style (by simpa using hplain)).tag
    · rfl
  change Except.ok (Node.scalar none (Properties.none.scalarTag
    (chooseStyle place s.toList == .plain) s.toList) (rest.length + 1) s.toList, rest) = _
  rw [htag]

/-- An item of a block. -/
private theorem blockItems_item {fuel : Nat} {node : Node} {nodes : List Node}
    {ts more rest : List Token} {t : Token} (hentry : t ≠ .blockEntry) (hend : t ≠ .blockEnd)
    (hfirst : ofFront handles .block fuel (t :: ts) = .ok (node, more))
    (hothers : blockItems handles fuel more = .ok (nodes, rest)) :
    blockItems handles (fuel + 1) (.blockEntry :: t :: ts) = .ok (node :: nodes, rest) := by
  rw [blockItems]
  · rw [hfirst]
    change ((blockItems handles fuel more).bind fun found => _) = _
    rw [hothers]
    rfl
  · exact fun u heq => hentry (List.cons.inj heq).1
  · exact fun u heq => hend (List.cons.inj heq).1

/-- An item at the indentation of the mapping around it. -/
private theorem indentlessItems_item {fuel : Nat} {node : Node} {nodes : List Node}
    {ts more rest : List Token} {t : Token} (hentry : t ≠ .blockEntry) (hend : t ≠ .blockEnd)
    (hkey : t ≠ .key) (hvalue : t ≠ .value)
    (hfirst : ofFront handles .block fuel (t :: ts) = .ok (node, more))
    (hothers : indentlessItems handles fuel more = .ok (nodes, rest)) :
    indentlessItems handles (fuel + 1) (.blockEntry :: t :: ts) = .ok (node :: nodes, rest) := by
  rw [indentlessItems]
  · rw [hfirst]
    change ((indentlessItems handles fuel more).bind fun found => _) = _
    rw [hothers]
    rfl
  · exact fun u heq => hentry (List.cons.inj heq).1
  · exact fun u heq => hkey (List.cons.inj heq).1
  · exact fun u heq => hvalue (List.cons.inj heq).1
  · exact fun u heq => hend (List.cons.inj heq).1

/-- A part of a pair that is not left out. -/
private theorem blockPart_node {fuel : Nat} {ts : List Token} {t : Token} (hend : t ≠ .blockEnd)
    (hkey : t ≠ .key) (hvalue : t ≠ .value) :
    blockPart handles (fuel + 1) (t :: ts) = ofFront handles .blockOrIndentless fuel (t :: ts) := by
  rw [blockPart]
  · exact fun u heq => hkey (List.cons.inj heq).1
  · exact fun u heq => hvalue (List.cons.inj heq).1
  · exact fun u heq => hend (List.cons.inj heq).1

private theorem blockPairs_pair {fuel : Nat} {key value : Node} {pairs : List (Node × Node)}
    {ts values more rest : List Token}
    (hkey : blockPart handles fuel ts = .ok (key, .value :: values))
    (hvalue : blockPart handles fuel values = .ok (value, more))
    (hothers : blockPairs handles fuel more = .ok (pairs, rest)) :
    blockPairs handles (fuel + 1) (.key :: ts) = .ok ((key, value) :: pairs, rest) := by
  rw [blockPairs, hkey]
  change ((blockPart handles fuel values).bind fun found => _) = _
  rw [hvalue]
  change ((blockPairs handles fuel more).bind fun found => _) = _
  rw [hothers]
  rfl

private theorem ofFront_sequence {allowed : Allowed} {fuel : Nat} {nodes : List Node}
    {ts rest : List Token} (hallowed : allowed ≠ .flow)
    (hitems : blockItems handles fuel ts = .ok (nodes, rest)) :
    ofFront handles allowed (fuel + 1) (.blockSequenceStart :: ts) =
      .ok (.sequence none .seq (ts.length + 1) nodes, rest) := by
  simp [ofFront, properties, hallowed, hitems, Except.bind, bind, pure, Except.pure,
    Properties.none, Properties.containerTag, Properties.isOpen]

private theorem ofFront_mapping {allowed : Allowed} {fuel : Nat} {pairs : List (Node × Node)}
    {ts rest : List Token} (hallowed : allowed ≠ .flow)
    (hpairs : blockPairs handles fuel ts = .ok (pairs, rest)) :
    ofFront handles allowed (fuel + 1) (.blockMappingStart :: ts) =
      .ok (.mapping none .map (ts.length + 1) pairs, rest) := by
  simp [ofFront, properties, hallowed, hpairs, Except.bind, bind, pure, Except.pure,
    Properties.none, Properties.containerTag, Properties.isOpen]

private theorem ofFront_indentless {fuel : Nat} {nodes : List Node} {ts rest : List Token}
    (hitems : indentlessItems handles fuel (.blockEntry :: ts) = .ok (nodes, rest)) :
    ofFront handles .blockOrIndentless (fuel + 1) (.blockEntry :: ts) =
      .ok (.sequence none .seq (ts.length + 1) nodes, rest) := by
  simp [ofFront, properties, hitems, Except.bind, bind, pure, Except.pure,
    Properties.none, Properties.containerTag, Properties.isOpen]

/-- The tokens of items are read to nodes that show them, up to the end of their block. -/
theorem blockItems_tokens {items : List Value} (hitems : ∀ x ∈ items, Parses handles x) {fuel : Nat}
    (rest : List Token) (hfuel : (itemTokens items).length + 1 ≤ fuel) :
    ∃ nodes, ShowsAll nodes items ∧
      blockItems handles fuel (itemTokens items ++ .blockEnd :: rest) = .ok (nodes, rest) := by
  induction items generalizing fuel with
  | nil =>
      obtain ⟨fuel, rfl⟩ : ∃ n, fuel = n + 1 := ⟨fuel - 1, by omega⟩
      exact ⟨[], showsAll_nil, rfl⟩
  | cons x xs ih =>
      obtain ⟨fuel, rfl⟩ : ∃ n, fuel = n + 1 := ⟨fuel - 1, by omega⟩
      simp only [itemTokens, List.cons_append, List.length_cons, List.length_append] at hfuel
      have hparses : Parses handles x := hitems x (by simp)
      obtain ⟨node, hshows, hfirst⟩ := hparses .block (itemTokens xs ++ .blockEnd :: rest) (by simp)
        (show _ ≤ fuel by omega)
      obtain ⟨nodes, hall, hothers⟩ :=
        ih (fun y hy => hitems y (by simp [hy])) (show _ ≤ fuel by omega)
      obtain ⟨t, ts, htokens, hend, -, -, hentry⟩ := valueTokens_head false x
      refine ⟨node :: nodes, hall.cons hshows, ?_⟩
      rw [htokens] at hfirst
      simp only [itemTokens, htokens, List.cons_append, List.append_assoc]
      exact blockItems_item (hentry rfl) hend hfirst hothers

/-- The tokens of items without a block of their own are read up to the first token that begins no
item. -/
theorem indentlessItems_tokens {items : List Value} (hitems : ∀ x ∈ items, Parses handles x)
    {fuel : Nat} {rest : List Token} (hrest : ∀ ts, rest ≠ .blockEntry :: ts)
    (hfuel : (itemTokens items).length + 1 ≤ fuel) :
    ∃ nodes, ShowsAll nodes items ∧
      indentlessItems handles fuel (itemTokens items ++ rest) = .ok (nodes, rest) := by
  induction items generalizing fuel with
  | nil =>
      obtain ⟨fuel, rfl⟩ : ∃ n, fuel = n + 1 := ⟨fuel - 1, by omega⟩
      refine ⟨[], showsAll_nil, ?_⟩
      rw [itemTokens, List.nil_append, indentlessItems]
      exact hrest
  | cons x xs ih =>
      obtain ⟨fuel, rfl⟩ : ∃ n, fuel = n + 1 := ⟨fuel - 1, by omega⟩
      simp only [itemTokens, List.cons_append, List.length_cons, List.length_append] at hfuel
      have hparses : Parses handles x := hitems x (by simp)
      obtain ⟨node, hshows, hfirst⟩ := hparses .block (itemTokens xs ++ rest) (by simp)
        (show _ ≤ fuel by omega)
      obtain ⟨nodes, hall, hothers⟩ :=
        ih (fun y hy => hitems y (by simp [hy])) (show _ ≤ fuel by omega)
      obtain ⟨t, ts, htokens, hend, hkey, hvalue, hentry⟩ := valueTokens_head false x
      refine ⟨node :: nodes, hall.cons hshows, ?_⟩
      rw [htokens] at hfirst
      simp only [itemTokens, htokens, List.cons_append, List.append_assoc]
      exact indentlessItems_item (hentry rfl) hend hkey hvalue hfirst hothers

/-- The tokens of entries are read to pairs that show them, up to the end of their block. -/
theorem blockPairs_tokens {entries : Entries} (htexts : ∀ e ∈ entries, ∃ s, e.1 = .str s)
    (hvalues : ∀ e ∈ entries, Parses handles e.2 ∧ ParsesBelow handles e.2) {fuel : Nat}
    (rest : List Token) (hfuel : (entryTokens entries).length + 1 ≤ fuel) :
    ∃ pairs, ShowsPairs pairs entries ∧
      blockPairs handles fuel (entryTokens entries ++ .blockEnd :: rest) = .ok (pairs, rest) := by
  induction entries generalizing fuel with
  | nil =>
      obtain ⟨fuel, rfl⟩ : ∃ n, fuel = n + 1 := ⟨fuel - 1, by omega⟩
      exact ⟨[], showsPairs_nil, rfl⟩
  | cons e es ih =>
      obtain ⟨key, v⟩ := e
      obtain ⟨s, hkey⟩ := htexts (key, v) (by simp)
      cases hkey
      obtain ⟨fuel, rfl⟩ : ∃ n, fuel = n + 3 := ⟨fuel - 3, by
        simp only [entryTokens, List.length_append, List.length_cons] at hfuel
        omega⟩
      simp only [entryTokens, List.length_append, List.length_cons] at hfuel
      obtain ⟨pairs, hall, hothers⟩ := ih (fun e he => htexts e (by simp [he]))
        (fun e he => hvalues e (by simp [he])) (show _ ≤ fuel + 2 by omega)
      obtain ⟨hparses, hbelow⟩ : Parses handles v ∧ ParsesBelow handles v :=
        hvalues (.str s, v) (by simp)
      -- items under a key may stand as far left as the key, and end where no other item follows
      have hmore : ∀ ts, entryTokens es ++ .blockEnd :: rest ≠ .blockEntry :: ts := by
        cases es with
        | nil => simp [entryTokens]
        | cons e es => simp [entryTokens]
      obtain ⟨node, hshows, hvalue⟩ : ∃ node, Shows node v ∧
          ofFront handles .blockOrIndentless (fuel + 1)
            (valueTokens (isSimpleKey (keyChars (.str s))) v ++
              (entryTokens es ++ .blockEnd :: rest)) =
            .ok (node, entryTokens es ++ .blockEnd :: rest) := by
        cases hsimple : isSimpleKey (keyChars (.str s)) with
        | true => exact hbelow _ hmore (by rw [hsimple] at hfuel; omega)
        | false => exact hparses _ _ (by simp) (by rw [hsimple] at hfuel; omega)
      obtain ⟨t, ts, htokens, hend, hkey, hcolon, -⟩ :=
        valueTokens_head (isSimpleKey (keyChars (.str s))) v
      rw [htokens] at hvalue
      have hvaluePart := (blockPart_node hend hkey hcolon).trans hvalue
      obtain ⟨number, hkeyPart⟩ : ∃ number, blockPart handles (fuel + 2)
          (keyToken (.str s) :: .value :: (t :: ts ++ (entryTokens es ++ .blockEnd :: rest))) =
            .ok (.scalar none .str number s.toList, _) :=
        ⟨_, (blockPart_node (by simp [keyToken, textToken]) (by simp [keyToken, textToken])
          (by simp [keyToken, textToken])).trans (parses_text s _ .blockOrIndentless fuel _)⟩
      refine ⟨_, ShowsPairs.cons number hshows hall, ?_⟩
      simp only [entryTokens, htokens, List.cons_append, List.append_assoc]
      exact blockPairs_pair hkeyPart hvaluePart hothers

/-- A value that is read alike at every place. -/
private theorem parses_alike {v : Value} (hread : ∀ (b : Bool) {allowed : Allowed} {fuel : Nat}
    {rest : List Token}, allowed ≠ .flow → (valueTokens b v).length ≤ fuel →
    ∃ node, Shows node v ∧
      ofFront handles allowed fuel (valueTokens b v ++ rest) = .ok (node, rest)) :
    Parses handles v ∧ ParsesBelow handles v :=
  ⟨fun _ _ _ hallowed hfuel => hread false hallowed hfuel,
    fun _ _ hfuel => hread true (by simp) (by omega)⟩

private theorem parses_list {items : List Value} (hitems : ∀ x ∈ items, Parses handles x) :
    Parses handles (.list items) ∧ ParsesBelow handles (.list items) := by
  cases items with
  | nil =>
      apply parses_alike
      intro b allowed fuel rest hallowed hfuel
      obtain ⟨fuel, rfl⟩ : ∃ n, fuel = n + 2 := ⟨fuel - 2, by simp [valueTokens] at hfuel; omega⟩
      exact ⟨_, shows_sequence _ showsAll_nil, rfl⟩
  | cons x xs =>
      constructor
      · intro allowed fuel rest hallowed hfuel
        have htokens : valueTokens false (.list (x :: xs)) =
            .blockSequenceStart :: itemTokens (x :: xs) ++ [.blockEnd] := rfl
        rw [htokens] at hfuel ⊢
        simp only [List.length_append, List.length_cons, List.length_nil] at hfuel
        obtain ⟨fuel, rfl⟩ : ∃ n, fuel = n + 1 := ⟨fuel - 1, by omega⟩
        obtain ⟨nodes, hall, hread⟩ := blockItems_tokens hitems rest (show _ ≤ fuel by omega)
        rw [List.cons_append, List.cons_append, List.append_assoc]
        exact ⟨_, shows_sequence _ hall, ofFront_sequence hallowed hread⟩
      · intro fuel rest hrest hfuel
        have htokens : valueTokens true (.list (x :: xs)) = itemTokens (x :: xs) := rfl
        rw [htokens] at hfuel ⊢
        obtain ⟨fuel, rfl⟩ : ∃ n, fuel = n + 1 := ⟨fuel - 1, by omega⟩
        obtain ⟨nodes, hall, hread⟩ := indentlessItems_tokens hitems hrest (show _ ≤ fuel by omega)
        exact ⟨_, shows_sequence _ hall, ofFront_indentless hread⟩

private theorem parses_object {entries : Entries} (hkeys : (Entries.keys entries).Nodup)
    (htexts : ∀ e ∈ entries, ∃ s, e.1 = .str s)
    (hvalues : ∀ e ∈ entries, Parses handles e.2 ∧ ParsesBelow handles e.2) :
    Parses handles (.object entries) ∧ ParsesBelow handles (.object entries) := by
  apply parses_alike
  intro b allowed fuel rest hallowed hfuel
  cases entries with
  | nil =>
      obtain ⟨fuel, rfl⟩ : ∃ n, fuel = n + 2 := ⟨fuel - 2, by simp [valueTokens] at hfuel; omega⟩
      exact ⟨_, shows_mapping _ hkeys htexts showsPairs_nil, rfl⟩
  | cons e es =>
      have htokens : valueTokens b (.object (e :: es)) =
          .blockMappingStart :: entryTokens (e :: es) ++ [.blockEnd] := rfl
      rw [htokens] at hfuel ⊢
      simp only [List.length_append, List.length_cons, List.length_nil] at hfuel
      obtain ⟨fuel, rfl⟩ : ∃ n, fuel = n + 1 := ⟨fuel - 1, by omega⟩
      obtain ⟨pairs, hall, hpairs⟩ := blockPairs_tokens htexts hvalues rest (show _ ≤ fuel by omega)
      rw [List.cons_append, List.cons_append, List.append_assoc]
      exact ⟨_, shows_mapping _ hkeys htexts hall, ofFront_mapping hallowed hpairs⟩

/-- A document whose texts are kept is read from its tokens to a node that shows it. -/
theorem parses_of_kept {below : Bool} {indent : Nat} {v : Value}
    (h : IsKeptDocument below indent v) : Parses handles v ∧ ParsesBelow handles v := by
  induction h with
  | @text below indent s hs =>
      apply parses_alike
      intro b allowed fuel rest _ hfuel
      obtain ⟨fuel, rfl⟩ : ∃ n, fuel = n + 1 := ⟨fuel - 1, by simp [valueTokens] at hfuel; omega⟩
      exact ⟨_, shows_text _ s, parses_text s .block allowed fuel rest⟩
  | @word below indent v hv =>
      apply parses_alike
      intro b allowed fuel rest _ hfuel
      rw [valueTokens_leaf hv.leaf] at hfuel ⊢
      obtain ⟨fuel, rfl⟩ : ∃ n, fuel = n + 1 := ⟨fuel - 1, by simp at hfuel; omega⟩
      exact ⟨_, shows_word (rest.length + 1) hv, rfl⟩
  | list _ ih => exact parses_list fun x hx => (ih x hx).1
  | object hkeys htexts _ ih =>
      exact parses_object hkeys (fun e he => (htexts e he).imp fun _ h => h.1) ih

end Node

private theorem ofTokens_block {ts ending : List Token} {root : Node}
    (hread : Node.ofFront Node.standardHandles .block (4 * (.blockMappingStart :: ts).length + 4)
      (.blockMappingStart :: ts) = .ok (root, ending))
    (hanchors : root.anchors [] = .ok []) (hskip : Node.skipEnds ending = []) :
    Node.ofTokens (.blockMappingStart :: ts) = .ok (some root) := by
  rw [List.length_cons] at hread
  simp [Node.ofTokens, hread, Node.keepingAnchors, hanchors, hskip, bind, Except.bind, pure,
    Except.pure]

/-- The text of a mapping whose texts are kept has it as its value. -/
theorem load_write {entries : Entries} (hnonempty : entries ≠ [])
    (h : IsKeptDocument false 0 (.object entries)) :
    load (write (.object entries)) = .ok (.object entries) := by
  have htokens := tokens_write hnonempty h
  obtain ⟨ending, hending⟩ : ∃ ending : List Token,
      ending = if needsClosing (.object entries) then [.documentEnd] else [] := ⟨_, rfl⟩
  rw [← hending] at htokens
  have hvalue : valueTokens false (.object entries) =
      .blockMappingStart :: entryTokens entries ++ [.blockEnd] := by
    obtain ⟨e, es, rfl⟩ := List.exists_cons_of_ne_nil hnonempty
    rfl
  have hfuel : (valueTokens false (.object entries)).length ≤
      4 * (.blockMappingStart :: entryTokens entries ++ .blockEnd :: ending).length + 4 := by
    rw [hvalue]
    simp only [List.length_append, List.length_cons, List.length_nil]
    omega
  have hparses : Node.Parses Node.standardHandles (.object entries) := (Node.parses_of_kept h).1
  obtain ⟨root, hshows, hread⟩ := hparses .block ending (by simp) hfuel
  have hskip : Node.skipEnds ending = [] := by
    rw [hending]
    split <;> rfl
  have happend : valueTokens false (.object entries) ++ ending =
      .blockMappingStart :: entryTokens entries ++ .blockEnd :: ending := by
    rw [hvalue]
    simp
  rw [happend] at hread
  have hnode : Node.ofTokens (.blockMappingStart :: entryTokens entries ++ .blockEnd :: ending) =
      .ok (some root) := ofTokens_block hread (hshows.anchors []) hskip
  simp only [load, htokens]
  rw [hnode]
  exact hshows.toValue

/-- The empty mapping is written in brackets. -/
theorem load_write_empty : load (write (.object [])) = .ok (.object []) := by
  have htokens : tokens? (write (.object [])) = some [.flowMappingStart, .flowMappingEnd] := rfl
  simp only [load, htokens]
  rfl

end FunctionPipeline.Yaml
