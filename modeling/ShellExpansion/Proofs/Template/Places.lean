import ShellExpansion.Proofs.Template.Source

/-!
# Places in a template

A place is between two items of a region, at any depth: the reader comes to it past the items that
stand before it, or into a slot of an expansion (`LeadsTo whole before place`, where `before` is the
text in front of the place).  What is left of the region there, and the nodes that it stands for, are
part of the place.

* `LeadsTo.split`, `LeadsTo.ends` : what stands before, at and after a place.
* `Braced.comesTo`, `Items.comesTo` : **a dollar after another character is at a place, or a
  backslash makes it plain.**  The induction is over derivations.
-/

namespace ShellExpansion

/-- The regions of an operator's slots, one after the other. -/
def Operator.Layout.regions : Operator.Layout → List Region
  | .bare => []
  | .word => [.word]
  | .fields => [.field, .field]
  | .replacement => [.pattern, .word]

namespace Grammar

variable {limit : Nat}

/-- A place between two items of a region: what is left of the region. -/
structure Place (limit : Nat) where
  /-- The region. -/
  region : Region
  /-- The number of expansions around it. -/
  depth : Nat
  /-- The text up to the end of the region. -/
  text : Text
  /-- What follows the region. -/
  next : Text
  /-- What the text stands for. -/
  nodes : List Node
  /-- The text stands for the nodes. -/
  items : Items limit region depth text next nodes

/-- The slots of an expansion, each as the place where it starts, with what stands before it in the
source. -/
inductive HasSlot : Node → Text → Place limit → Prop
  | first {name source after : Text} {op : Operator} {words : List Node} {depth : Nat} {c : Char}
      {slot : Place limit} (hregion : op.layout.regions[0]? = some slot.region)
      (hdepth : slot.depth = depth + 1) (hend : c ∈ ends slot.region) (hnext : slot.next = [c])
      (hsource : source = '$' :: '{' :: name ++ op.spelling ++ slot.text ++ c :: after) :
      HasSlot (.expansion name (some op) (.ofPieces slot.nodes :: words) depth source)
        ('$' :: '{' :: name ++ op.spelling) slot
  | second {name source before : Text} {op : Operator} {nodes : List Node} {depth : Nat} {c : Char}
      {region : Region} {slot : Place limit}
      (hregions : op.layout.regions = [region, slot.region]) (hdepth : slot.depth = depth + 1)
      (hend : c ∈ ends region) (hbefore : Items limit region (depth + 1) before [c] nodes)
      (hnext : slot.next = ['}'])
      (hsource : source
        = '$' :: '{' :: name ++ op.spelling ++ before ++ [c] ++ slot.text ++ ['}']) :
      HasSlot (.expansion name (some op) [.ofPieces nodes, .ofPieces slot.nodes] depth source)
        ('$' :: '{' :: name ++ op.spelling ++ before ++ [c]) slot

/-- The reader comes from one place to another one, past items or into slots.  The text is what
stands between the two. -/
inductive LeadsTo : Place limit → Text → Place limit → Prop
  | here (place : Place limit) : LeadsTo place [] place
  /-- Past an item without braces. -/
  | plain {region : Region} {depth : Nat} {item text next before : Text} {node : Node}
      {nodes : List Node} {place : Place limit} (head : Plain region depth item (text ++ next) node)
      (tail : Items limit region depth text next nodes)
      (h : LeadsTo ⟨region, depth, text, next, nodes, tail⟩ before place) :
      LeadsTo ⟨region, depth, item ++ text, next, node :: nodes, .plain head tail⟩
        (item ++ before) place
  /-- Past an expansion. -/
  | braced {region : Region} {depth : Nat} {item text next before : Text} {node : Node}
      {nodes : List Node} {place : Place limit} (hdepth : depth ≤ limit)
      (head : Braced limit depth item node) (tail : Items limit region depth text next nodes)
      (h : LeadsTo ⟨region, depth, text, next, nodes, tail⟩ before place) :
      LeadsTo ⟨region, depth, item ++ text, next, node :: nodes, .braced hdepth head tail⟩
        (item ++ before) place
  /-- Into a slot of an expansion. -/
  | slot {region : Region} {depth : Nat} {item text next left before : Text} {node : Node}
      {nodes : List Node} {slot place : Place limit} (hdepth : depth ≤ limit)
      (head : Braced limit depth item node) (tail : Items limit region depth text next nodes)
      (hslot : HasSlot node left slot) (h : LeadsTo slot before place) :
      LeadsTo ⟨region, depth, item ++ text, next, node :: nodes, .braced hdepth head tail⟩
        (left ++ before) place

/-! ## What stands around a place -/

theorem closing_mem_ends {region : Region} (h : region ≠ .outside) : '}' ∈ ends region := by
  cases region with
  | outside => exact absurd rfl h
  | _ => decide

theorem mem_regions_ne {layout : Operator.Layout} {region : Region} (h : region ∈ layout.regions) :
    region ≠ .outside := by
  rintro rfl
  cases layout <;> revert h <;> decide

section

variable {whole place : Place limit} {before left : Text} {node : Node}

/-- A slot stands in the source of its expansion. -/
theorem HasSlot.render_eq (h : HasSlot node left place) :
    ∃ right, node.render = left ++ place.text ++ place.next ++ right ∧ place.next ≠ [] := by
  cases h with
  | @first name source after op words depth c _ hregion hdepth hend hnext hsource =>
    refine ⟨after, ?_, by simp [hnext]⟩
    rw [hnext, Node.render, hsource]
    simp
  | second hregions hdepth hend hbefore hnext hsource =>
    refine ⟨[], ?_, by simp [hnext]⟩
    rw [hnext, Node.render, hsource, List.append_nil]

theorem HasSlot.ends (h : HasSlot node left place) : Ends place.region place.next := by
  cases h with
  | first hregion hdepth hend hnext hsource =>
    rw [hnext]
    rintro d ⟨⟩
    exact hend
  | @second _ _ _ op _ _ _ _ _ hregions hdepth hend hbefore hnext hsource =>
    have hmem : place.region ∈ op.layout.regions := by
      rw [hregions]
      exact List.mem_cons_of_mem _ List.mem_cons_self
    rw [hnext]
    rintro d ⟨⟩
    exact closing_mem_ends (mem_regions_ne hmem)

theorem Braced.render_eq {depth : Nat} {text : Text} (h : Braced limit depth text node) :
    node.render = text := by
  obtain ⟨name, op, words, rfl⟩ := h.eq_expansion
  rfl

/-- The text is that before the place, that of the place, and the rest.  Only outside of every
expansion nothing follows the region. -/
theorem LeadsTo.split (h : LeadsTo whole before place) :
    ∃ rest, whole.text ++ whole.next = before ++ place.text ++ place.next ++ rest ∧
      (place.next = [] → whole.next = [] ∧ rest = []) := by
  induction h with
  | here place => exact ⟨[], by simp, fun hnext => ⟨hnext, rfl⟩⟩
  | plain head tail h ih =>
    obtain ⟨rest, htext, hend⟩ := ih
    exact ⟨rest, by simpa using htext, hend⟩
  | braced hdepth head tail h ih =>
    obtain ⟨rest, htext, hend⟩ := ih
    exact ⟨rest, by simpa using htext, hend⟩
  | @slot region depth item text next left before node nodes slot place hdepth head tail hslot h ih =>
    obtain ⟨rest, htext, hend⟩ := ih
    obtain ⟨right, hrender, hne⟩ := hslot.render_eq
    refine ⟨rest ++ right ++ text ++ next, ?_, fun hnext => absurd (hend hnext).1 hne⟩
    calc
      item ++ text ++ next = left ++ (slot.text ++ slot.next) ++ right ++ text ++ next := by
        rw [← head.render_eq, hrender, List.append_assoc left]
      _ = left ++ before ++ place.text ++ place.next ++ (rest ++ right ++ text ++ next) := by
        rw [htext]
        simp only [List.append_assoc]

theorem LeadsTo.ends (h : LeadsTo whole before place) (hwhole : Ends whole.region whole.next) :
    Ends place.region place.next := by
  induction h with
  | here place => exact hwhole
  | plain head tail h ih => exact ih hwhole
  | braced hdepth head tail h ih => exact ih hwhole
  | slot hdepth head tail hslot h ih => exact ih hslot.ends

end

/-! ## Where a dollar stands -/

/-- The dollar after this text is made plain by the backslash before it. -/
def IsEscaped (whole : Place limit) (before : Text) : Prop :=
  ∃ left place after, before = left ++ ['\\'] ∧ LeadsTo whole left place ∧
    place.region ≠ .outside ∧ place.text = '\\' :: '$' :: after

/-- The dollar after this text is at a place, unless it is escaped. -/
def ComesTo (whole : Place limit) (before : Text) : Prop :=
  (∃ place, LeadsTo whole before place) ∨ IsEscaped whole before

theorem ComesTo.prepend {whole inner : Place limit} {left before : Text}
    (h : ComesTo inner before)
    (hreaches : ∀ {before place}, LeadsTo inner before place →
      LeadsTo whole (left ++ before) place) :
    ComesTo whole (left ++ before) := by
  rcases h with ⟨place, hplace⟩ | ⟨left', place, after, rfl, hplace, hregion, htext⟩
  · exact .inl ⟨place, hreaches hplace⟩
  · exact .inr ⟨left ++ left', place, after, (List.append_assoc _ _ _).symm, hreaches hplace,
      hregion, htext⟩

section

variable {a b before after : Text} {c : Char}

/-- A character of two texts one after the other is in the first or in the second. -/
theorem cut_cases (h : a ++ b = before ++ c :: after) :
    (∃ t, a = before ++ c :: t) ∨ ∃ t, before = a ++ t ∧ b = t ++ c :: after := by
  rcases List.append_eq_append_iff.1 h with ⟨t, hbefore, hb⟩ | ⟨t, ha, hafter⟩
  · exact .inr ⟨t, hbefore, hb⟩
  · cases t with
    | nil => exact .inr ⟨[], by simpa using ha.symm, by simpa using hafter.symm⟩
    | cons d t =>
      cases hafter
      exact .inl ⟨t, ha⟩

/-- A character that the first text has not is in the second. -/
theorem cut_of_not_mem (hc : c ∉ a) (h : a ++ b = before ++ c :: after) :
    ∃ t, before = a ++ t ∧ b = t ++ c :: after := by
  rcases cut_cases h with ⟨t, rfl⟩ | ht
  · exact absurd (by simp) hc
  · exact ht

theorem getLast?_ne_of_append (h : (a ++ b).getLast? ≠ some c) : b.getLast? ≠ some c := by
  intro hlast
  refine h ?_
  rw [List.getLast?_append, hlast, Option.some_or]

end

theorem dollar_not_mem_name {name : Text} (hname : IsName name) : '$' ∉ name := fun hmem =>
  Parser.isNameChar_ne (hname.2 '$' hmem) (by decide) rfl

theorem dollar_not_mem_spelling (op : Operator) : '$' ∉ op.spelling := by
  cases op with
  | trim side extent => cases side <;> cases extent <;> decide
  | replace place => cases place <;> decide
  | default test => cases test <;> decide
  | assign test => cases test <;> decide
  | require test => cases test <;> decide
  | alternative test => cases test <;> decide
  | _ => decide

section

variable {name source before after : Text} {op : Operator} {c : Char}

/-- Inside an item without braces a dollar comes after a dollar, or after a backslash. -/
theorem Plain.dollar_inside {region : Region} {depth : Nat} {item next : Text} {node : Node}
    (h : Plain region depth item next node) (hitem : item = before ++ '$' :: after)
    (hne : before ≠ []) (hlast : before.getLast? ≠ some '$') :
    before = ['\\'] ∧ region ≠ .outside ∧ item = ['\\', '$'] := by
  obtain ⟨d, before, rfl⟩ := List.exists_cons_of_ne_nil hne
  cases h with
  | dollars h =>
    obtain ⟨rfl, htail⟩ := List.cons.inj hitem
    cases before with
    | nil => exact absurd rfl hlast
    | cons d before => simp at htail
  | dollar h => simp at hitem
  | reference hname hnext =>
    obtain ⟨rfl, rfl⟩ := List.cons.inj hitem
    exact absurd (by simp) (dollar_not_mem_name hname)
  | escaped hregion hc =>
    obtain ⟨rfl, htail⟩ := List.cons.inj hitem
    cases before with
    | nil =>
      cases htail
      exact ⟨rfl, hregion, rfl⟩
    | cons d before => simp at htail
  | char hends hdollar hescape => simp at hitem

/-- A dollar after another character is not the first one. -/
theorem dollar_in_tail {s : Text} (h : '$' :: s = before ++ '$' :: after) (hne : before ≠ []) :
    ∃ t, before = '$' :: t ∧ s = t ++ '$' :: after := by
  obtain ⟨d, t, rfl⟩ := List.exists_cons_of_ne_nil hne
  cases h
  exact ⟨t, rfl, rfl⟩

theorem not_dollar_in_tail {s : Text} (hs : '$' ∉ s) (h : '$' :: s = before ++ '$' :: after)
    (hne : before ≠ []) : False := by
  obtain ⟨t, -, rfl⟩ := dollar_in_tail h hne
  exact hs (by simp)

theorem dollar_not_mem_frame (hname : IsName name) (op : Operator) :
    '$' ∉ '{' :: name ++ op.spelling := by
  simp only [List.cons_append, List.mem_cons, List.mem_append, not_or]
  exact ⟨by decide, dollar_not_mem_name hname, dollar_not_mem_spelling op⟩

end

/-- The reader comes to the dollar after this text in a slot of the expansion. -/
def ComesToSlot (limit : Nat) (node : Node) (before : Text) : Prop :=
  ∃ left t, ∃ slot : Place limit, before = left ++ t ∧ HasSlot node left slot ∧ ComesTo slot t

/-- The reader comes to every dollar of the text that does not follow another one. -/
def ComesToAll (whole : Place limit) : Prop :=
  ∀ before after, whole.text = before ++ '$' :: after → before.getLast? ≠ some '$' →
    ComesTo whole before

section

variable {name source before after rest : Text} {op : Operator} {words : List Node}
  {depth : Nat}

/-- A dollar of an expansion with slots, but the first one, is in the first slot or behind it. -/
theorem comesTo_first (hname : IsName name) {c : Char} {slot : Place limit}
    (hregion : op.layout.regions[0]? = some slot.region) (hdepth : slot.depth = depth + 1)
    (hend : c ∈ ends slot.region) (hnext : slot.next = [c])
    (hsource : source = '$' :: '{' :: name ++ op.spelling ++ slot.text ++ c :: rest)
    (hslot : ComesToAll slot) (hdollar : source = before ++ '$' :: after) (hne : before ≠ [])
    (hlast : before.getLast? ≠ some '$') :
    ComesToSlot limit (.expansion name (some op) (.ofPieces slot.nodes :: words) depth source)
        before ∨
      ∃ t, before = '$' :: '{' :: name ++ op.spelling ++ slot.text ++ c :: t ∧
        rest = t ++ '$' :: after := by
  have hframe : '$' :: ('{' :: name ++ op.spelling ++ (slot.text ++ c :: rest))
      = before ++ '$' :: after := by
    rw [← hdollar, hsource]
    simp
  obtain ⟨_, rfl, htail⟩ := dollar_in_tail hframe hne
  obtain ⟨t, rfl, hslots⟩ := cut_of_not_mem (dollar_not_mem_frame hname op) htail
  rcases cut_cases hslots with ⟨t', hin⟩ | ⟨t', rfl, hrest⟩
  · refine .inl ⟨'$' :: '{' :: name ++ op.spelling, t, slot, by simp,
      .first hregion hdepth hend hnext hsource, hslot _ _ hin ?_⟩
    exact getLast?_ne_of_append (a := '$' :: ('{' :: name ++ op.spelling)) (by simpa using hlast)
  · have hc : '$' ∉ [c] := fun hmem =>
      ne_dollar_of_mem_ends hend (List.mem_singleton.1 hmem).symm
    obtain ⟨t, rfl, ht⟩ := cut_of_not_mem hc (show [c] ++ rest = t' ++ '$' :: after from hrest)
    exact .inr ⟨t, by simp, ht⟩

/-- Where there is one slot only, it is there. -/
theorem comesTo_only (op : Operator) (slot : Place limit) (hname : IsName name)
    (hregion : op.layout.regions[0]? = some slot.region) (hdepth : slot.depth = depth + 1)
    (hend : '}' ∈ ends slot.region) (hnext : slot.next = ['}'])
    (hsource : source = '$' :: '{' :: name ++ op.spelling ++ slot.text ++ ['}'])
    (hslot : ComesToAll slot) (hdollar : source = before ++ '$' :: after) (hne : before ≠ [])
    (hlast : before.getLast? ≠ some '$') :
    ComesToSlot limit (.expansion name (some op) (.ofPieces slot.nodes :: words) depth source)
      before := by
  rcases comesTo_first hname hregion hdepth hend hnext hsource hslot hdollar hne hlast with
    h | ⟨t, -, ht⟩
  · exact h
  · simp at ht

/-- Where there are two, it is in the second if it is not in the first. -/
theorem comesTo_second (op : Operator) (slot slot' : Place limit) (hname : IsName name) {c : Char}
    (hregions : op.layout.regions = [slot.region, slot'.region]) (hdepth : slot.depth = depth + 1)
    (hdepth' : slot'.depth = depth + 1) (hend : c ∈ ends slot.region) (hnext : slot.next = [c])
    (hnext' : slot'.next = ['}'])
    (hsource : source
      = '$' :: '{' :: name ++ op.spelling ++ slot.text ++ c :: (slot'.text ++ ['}']))
    (hslot : ComesToAll slot) (hslot' : ComesToAll slot') (hdollar : source = before ++ '$' :: after)
    (hne : before ≠ []) (hlast : before.getLast? ≠ some '$') :
    ComesToSlot limit
      (.expansion name (some op) [.ofPieces slot.nodes, .ofPieces slot'.nodes] depth source)
      before := by
  have hregion : op.layout.regions[0]? = some slot.region := by
    rw [hregions]
    rfl
  rcases comesTo_first hname hregion hdepth hend hnext hsource hslot hdollar hne hlast with
    h | ⟨t, rfl, ht⟩
  · exact h
  · rcases cut_cases ht with ⟨t', hin⟩ | ⟨t', -, hrest⟩
    · have hitems : Items limit slot.region (depth + 1) slot.text [c] slot.nodes := by
        rw [← hdepth, ← hnext]
        exact slot.items
      refine ⟨'$' :: '{' :: name ++ op.spelling ++ slot.text ++ [c], t, slot', by simp,
        .second hregions hdepth' hend hitems hnext' (by simpa using hsource), hslot' _ _ hin ?_⟩
      refine getLast?_ne_of_append (a := '$' :: '{' :: name ++ op.spelling ++ slot.text ++ [c]) ?_
      simpa using hlast
    · simp [List.cons_eq_append_iff] at hrest

end

mutual

/-- The reader comes to every dollar of a text that is derived, unless it follows another one. -/
theorem Items.comesTo {region : Region} {depth : Nat} {text next : Text} {nodes : List Node} :
    (h : Items limit region depth text next nodes) →
      ComesToAll ⟨region, depth, text, next, nodes, h⟩
  | .nil => by
    intro before after htext
    simp at htext
  | @Items.plain _ _ _ item text _ node nodes head tail => by
    intro before after htext hlast
    rcases cut_cases htext with ⟨t, hitem⟩ | ⟨t, rfl, ht⟩
    · by_cases hne : before = []
      · subst hne
        exact .inl ⟨_, .here _⟩
      · obtain ⟨rfl, hregion, rfl⟩ := head.dollar_inside hitem hne hlast
        exact .inr ⟨[], _, text, rfl, .here _, hregion, rfl⟩
    · exact (tail.comesTo _ _ ht (getLast?_ne_of_append hlast)).prepend (.plain head tail)
  | @Items.braced _ _ _ item text _ node nodes hdepth head tail => by
    intro before after htext hlast
    rcases cut_cases htext with ⟨t, hitem⟩ | ⟨t, rfl, ht⟩
    · by_cases hne : before = []
      · subst hne
        exact .inl ⟨_, .here _⟩
      · obtain ⟨left, t, slot, rfl, hslot, hcomes⟩ := head.comesTo hitem hne hlast
        exact hcomes.prepend (.slot hdepth head tail hslot)
    · exact (tail.comesTo _ _ ht (getLast?_ne_of_append hlast)).prepend (.braced hdepth head tail)

/-- It comes to every dollar of an expansion but the first one in a slot. -/
theorem Braced.comesTo {depth : Nat} {source before after : Text} {node : Node} :
    Braced limit depth source node → source = before ++ '$' :: after → before ≠ [] →
      before.getLast? ≠ some '$' → ComesToSlot limit node before
  | @Braced.length _ _ name hname, hsource, hne, _ => by
    refine (not_dollar_in_tail ?_ hsource hne).elim
    simp [dollar_not_mem_name hname]
  | .name hname, hsource, hne, _ => by
    refine (not_dollar_in_tail ?_ hsource hne).elim
    simp [dollar_not_mem_name hname]
  | @Braced.casing _ _ _ op hname hop, hsource, hne, _ => by
    refine (not_dollar_in_tail ?_ hsource hne).elim
    simp [dollar_not_mem_name hname, dollar_not_mem_spelling op]
  | @Braced.word _ _ name word op nodes hname hop hword, hsource, hne, hlast => by
    have hregion : op.layout.regions[0]? = some .word := by
      rw [layout_of_mem_wordOperators op hop.1]
      rfl
    exact comesTo_only op ⟨.word, depth + 1, word, ['}'], nodes, hword⟩ hname hregion rfl
      (closing_mem_ends nofun) rfl rfl hword.comesTo hsource hne hlast
  | @Braced.offset _ _ name offset nodes hname hfirst hne' hoffset, hsource, hne, hlast => by
    exact comesTo_only .slice ⟨.field, depth + 1, offset, ['}'], nodes, hoffset⟩
      hname rfl rfl (closing_mem_ends nofun) rfl (by simp [Operator.spelling]) hoffset.comesTo hsource
      hne hlast
  | @Braced.slice _ _ name offset length nodes nodes' hname hfirst hne' hoffset hlength, hsource,
      hne, hlast => by
    exact comesTo_second .slice ⟨.field, depth + 1, offset, [':'], nodes, hoffset⟩
      ⟨.field, depth + 1, length, ['}'], nodes', hlength⟩ hname rfl rfl rfl List.mem_cons_self rfl rfl
      (by simp [Operator.spelling]) hoffset.comesTo hlength.comesTo hsource hne hlast
  | @Braced.pattern _ _ name pattern op nodes hname hop hpattern, hsource, hne, hlast => by
    have hregion : op.layout.regions[0]? = some .pattern := by
      rw [layout_of_mem_replaceOperators op hop.1]
      rfl
    exact comesTo_only op ⟨.pattern, depth + 1, pattern, ['}'], nodes, hpattern⟩ hname
      hregion rfl (closing_mem_ends nofun) rfl rfl hpattern.comesTo hsource hne hlast
  | @Braced.replacement _ _ name pattern word op nodes nodes' hname hop hpattern hword, hsource,
      hne, hlast => by
    have hregions : op.layout.regions = [.pattern, .word] := by
      rw [layout_of_mem_replaceOperators op hop.1]
      rfl
    exact comesTo_second op ⟨.pattern, depth + 1, pattern, ['/'], nodes, hpattern⟩
      ⟨.word, depth + 1, word, ['}'], nodes', hword⟩ hname hregions rfl rfl
      List.mem_cons_self rfl rfl (by simp) hpattern.comesTo hword.comesTo hsource hne hlast

end

end Grammar

end ShellExpansion
