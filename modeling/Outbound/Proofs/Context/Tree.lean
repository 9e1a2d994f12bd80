import Outbound.Context.Tree
import Outbound.Proofs.Cancellation
import Outbound.Proofs.Lookup

/-!
# What ends a derived context

A token is canceled if the context that made it was canceled, by whatever name, or one whose token
is above it. Deadlines and request ids are handed down. So what ends a context can be read off the
way in which it was derived.
-/

namespace Outbound

/-! ## Lineages -/

namespace Link

variable {l : Link} (h : l.makesToken = false)

include h

theorem how_of_not_makesToken : l.how = some .clone ∨ ∃ id, l.how = some (.requestId id) := by
  unfold makesToken at h
  split at h
  · rename_i hhow
    exact .inl hhow
  · rename_i hhow
    exact .inr ⟨_, hhow⟩
  · cases h

theorem isRoot_of_not_makesToken : l.isRoot = false := by
  rcases how_of_not_makesToken h with hhow | ⟨id, hhow⟩ <;> rw [isRoot, hhow] <;> rfl

theorem deadline?_of_not_makesToken : l.deadline? = none := by
  rcases how_of_not_makesToken h with hhow | ⟨id, hhow⟩ <;> rw [deadline?, hhow]

end Link

namespace Lineage

variable {l : Link} {above newer : Lineage}

theorem line_cons (l : Link) (above : Lineage) :
    line (l :: above) = (if l.makesToken then [l.number] else []) ++
      if l.isRoot then [] else above.line := by
  rw [line, sinceRoot]
  split <;> by_cases h : l.makesToken <;> simp [h, line]

theorem deadlines_cons (l : Link) (above : Lineage) :
    deadlines (l :: above) = l.deadline?.toList ++ if l.isRoot then [] else above.deadlines := by
  rw [deadlines, sinceRoot]
  split <;> cases h : l.deadline? <;> simp [h, deadlines]

theorem mem_of_mem_line {n : Nat} (h : n ∈ line above) : ∃ l ∈ above, l.number = n := by
  induction above with
  | nil => cases h
  | cons l above ih =>
    rw [line_cons] at h
    rcases List.mem_append.1 h with h | h
    · split at h
      · exact ⟨l, List.mem_cons_self, (List.mem_singleton.1 h).symm⟩
      · cases h
    · split at h
      · cases h
      · obtain ⟨l', hl', hn⟩ := ih h
        exact ⟨l', List.mem_cons_of_mem _ hl', hn⟩

theorem deadlines_append (h : ∀ l ∈ newer, l.isRoot = false) (above : Lineage) :
    deadlines (newer ++ above) = newer.filterMap Link.deadline? ++ above.deadlines := by
  induction newer with
  | nil => rfl
  | cons l newer ih =>
    have hrest := ih fun l' hl' ↦ h l' (List.mem_cons_of_mem _ hl')
    rw [List.cons_append, deadlines_cons, h l List.mem_cons_self, if_neg Bool.false_ne_true, hrest,
      List.filterMap_cons]
    cases l.deadline? <;> rfl

theorem requestId?_cons (l : Link) (above : Lineage) :
    requestId? (l :: above) = l.requestId?.or above.requestId? := by
  rw [requestId?, List.findSome?_cons]
  cases l.requestId? <;> rfl

/-- A context that is derived from another one has its token, or one that a later context made. -/
theorem line_append_cases (h : (newer ++ above).Pairwise fun l l' ↦ l'.number < l.number) :
    line (newer ++ above) = above.line ∨
      ∃ n, (line (newer ++ above)).head? = some n ∧ n ∉ above.line := by
  induction newer with
  | nil => exact .inl rfl
  | cons l newer ih =>
    rw [List.cons_append] at h ⊢
    obtain ⟨hlater, hrest⟩ := List.pairwise_cons.1 h
    cases hmakes : l.makesToken with
    | true =>
      refine .inr ⟨l.number, by rw [line_cons, hmakes]; rfl, fun hmem ↦ ?_⟩
      obtain ⟨l', hl', hn⟩ := mem_of_mem_line hmem
      exact (hlater l' (List.mem_append_right _ hl')).ne hn
    | false =>
      have hline : line (l :: (newer ++ above)) = line (newer ++ above) := by
        rw [line_cons, hmakes, Link.isRoot_of_not_makesToken hmakes]
        rfl
      rw [hline]
      exact ih hrest

end Lineage

/-! ## Tokens and those that made them -/

/-- A token with the contexts that made it and those above it, given which context made each. -/
inductive TokenLine (nodes : List Token) (makers : List Nat) : Nat → List Nat → Prop where
  | root {token maker : Nat} {canceled : Bool} (node : nodes[token]? = some ⟨none, canceled⟩)
    (made : makers[token]? = some maker) : TokenLine nodes makers token [maker]
  | derived {token parent maker : Nat} {canceled : Bool} {line : List Nat}
    (node : nodes[token]? = some ⟨some parent, canceled⟩) (made : makers[token]? = some maker)
    (lt : parent < token) (above : TokenLine nodes makers parent line) :
    TokenLine nodes makers token (maker :: line)

namespace TokenLine

variable {nodes nodes' more : List Token} {makers makers' : List Nat} {token : Nat}
  {line : List Nat}

theorem node (h : TokenLine nodes makers token line) :
    ∃ t maker, nodes[token]? = some t ∧ makers[token]? = some maker ∧ line.head? = some maker ∧
      ∀ p, t.parent = some p → p < token := by
  cases h with
  | root node made => exact ⟨_, _, node, made, rfl, fun p hp ↦ by cases hp⟩
  | derived node made lt above =>
    refine ⟨_, _, node, made, rfl, fun p hp ↦ ?_⟩
    cases hp
    exact lt

theorem lt_length (h : TokenLine nodes makers token line) : token < nodes.length := by
  obtain ⟨t, maker, hnode, -⟩ := h.node
  exact (List.getElem?_eq_some_iff.1 hnode).1

/-- Tokens keep what they are below while they get canceled and others are added. -/
theorem mono (h : TokenLine nodes makers token line)
    (hnodes : ∀ (i : Nat) t, nodes[i]? = some t → ∃ canceled,
      nodes'[i]? = some ⟨t.parent, canceled⟩)
    (hmakers : ∀ (i : Nat) n, makers[i]? = some n → makers'[i]? = some n) :
    TokenLine nodes' makers' token line := by
  induction h with
  | root node made =>
    obtain ⟨canceled, hnode⟩ := hnodes _ _ node
    exact .root hnode (hmakers _ _ made)
  | derived node made lt _ ih =>
    obtain ⟨canceled, hnode⟩ := hnodes _ _ node
    exact .derived hnode (hmakers _ _ made) lt ih

theorem append (h : TokenLine nodes makers token line) (more : List Token) (new : List Nat) :
    TokenLine (nodes ++ more) (makers ++ new) token line := by
  refine h.mono (fun i t hi ↦ ?_) fun i n hi ↦ getElem?_append_of_some hi new
  exact ⟨t.canceled, getElem?_append_of_some hi more⟩

/-- What an old token is below does not depend on the tokens added later. -/
theorem of_append {new : List Nat} (h : TokenLine (nodes ++ more) (makers ++ new) token line)
    (hlength : makers.length = nodes.length) (hlt : token < nodes.length) :
    TokenLine nodes makers token line := by
  induction h with
  | root node made =>
    rw [List.getElem?_append_left hlt] at node
    rw [List.getElem?_append_left (hlength ▸ hlt)] at made
    exact .root node made
  | derived node made lt _ ih =>
    rw [List.getElem?_append_left hlt] at node
    rw [List.getElem?_append_left (hlength ▸ hlt)] at made
    exact .derived node made lt (ih (lt.trans hlt))

end TokenLine

namespace Tokens

/-- Canceling changes no token but for being canceled. -/
theorem getElem?_cancel {tokens : Tokens} {j : Nat} {t : Token} (h : tokens.nodes[j]? = some t)
    (i : Nat) : ∃ canceled, (tokens.cancel i).nodes[j]? = some ⟨t.parent, canceled⟩ := by
  obtain ⟨canceled, hget, -⟩ := (getElem?_spread i [] tokens.nodes j).2 t h
  rw [List.length_nil, Nat.zero_add] at hget
  exact ⟨canceled, hget⟩

theorem length_spread (i : Nat) (done rest : List Token) :
    (spread i done rest).length = done.length + rest.length := by
  induction rest generalizing done with
  | nil => rfl
  | cons t rest ih =>
    rw [spread, ih, List.length_append, List.length_singleton, List.length_cons]
    omega

theorem length_cancel (tokens : Tokens) (i : Nat) :
    (tokens.cancel i).nodes.length = tokens.nodes.length := by
  rw [cancel, length_spread, List.length_nil, Nat.zero_add]

theorem line_cancel_iff (tokens : Tokens) (makers : List Nat) (i token : Nat) (line : List Nat) :
    TokenLine (tokens.cancel i).nodes makers token line ↔
      TokenLine tokens.nodes makers token line := by
  constructor
  · intro h
    refine h.mono (fun j t hj ↦ ?_) fun _ _ hn ↦ hn
    have hlt : j < tokens.nodes.length := by
      rw [← tokens.length_cancel i]
      exact (List.getElem?_eq_some_iff.1 hj).1
    have hold : tokens.nodes[j]? = some tokens.nodes[j] := List.getElem?_eq_getElem hlt
    obtain ⟨canceled, hget⟩ := getElem?_cancel hold i
    rw [hj] at hget
    cases hget
    exact ⟨_, hold⟩
  · intro h
    exact h.mono (fun j t hj ↦ getElem?_cancel hj i) fun _ _ hn ↦ hn

end Tokens

/-! ## Families -/

namespace ContextFamily

variable {events : List Event} {e : Event} {f f' : ContextFamily} {makers : List Nat} {now : Time}
  {nodes : List Token} {m : FamilyMember} {l : Link} {n : Nat}

/-- A context is what it was made to be, and its token is below those of its line. -/
structure Descends (nodes : List Token) (makers : List Nat) (m : FamilyMember) : Prop where
  line : TokenLine nodes makers m.ctx.token m.lineage.line
  deadline : m.ctx.deadline = m.lineage.deadlines.min?
  requestId : m.ctx.requestId = m.lineage.requestId?
  older : m.lineage.Pairwise fun l l' ↦ l'.number < l.number

/-- Every context is what it was made to be, and a token is canceled if the context that made it or
one above it was. -/
structure Lawful (events : List Event) (f : ContextFamily) (makers : List Nat) : Prop where
  length_eq : makers.length = f.tokens.nodes.length
  increasing : makers.Pairwise (· < ·)
  made : ∀ n ∈ makers, n < f.members.length
  known : ∀ j, Event.cancel j ∈ events → j < f.members.length
  numbered : ∀ (n : Nat) (m : FamilyMember), f.members[n]? = some m →
    ∃ l above, m.lineage = l :: above ∧ l.number = n ∧
      (above = [] ∨ ∃ source ∈ f.members, source.lineage = above)
  descends : ∀ m ∈ f.members, Descends f.tokens.nodes makers m
  canceled : ∀ token line, TokenLine f.tokens.nodes makers token line →
    (f.tokens.isCanceled token = true ↔ ∃ n ∈ line, f.Canceled events n)

theorem canceled_append (h : ∀ j, Event.cancel j ∈ events → j < f.members.length) (tokens : Tokens)
    (m : FamilyMember) : Canceled ⟨tokens, f.members ++ [m]⟩ events n ↔ f.Canceled events n := by
  unfold Canceled
  refine exists_congr fun j ↦ exists_congr fun target ↦ and_congr_right fun hj ↦ ?_
  rw [List.getElem?_append_left (h j hj)]

theorem canceled_concat (hne : ∀ j, e ≠ Event.cancel j) :
    f.Canceled (events ++ [e]) n ↔ f.Canceled events n := by
  have hmem (j : Nat) : Event.cancel j ∈ events ++ [e] ↔ Event.cancel j ∈ events := by
    rw [List.mem_append, List.mem_singleton]
    exact or_iff_left fun heq ↦ hne j heq.symm
  simp only [Canceled, hmem]

theorem canceled_cancel (tokens : Tokens) {j : Nat} (hm : f.members[j]? = some m) :
    Canceled ⟨tokens, f.members⟩ (events ++ [.cancel j]) n ↔
      f.Canceled events n ∨ m.lineage.line.head? = some n := by
  simp only [Canceled, List.mem_append, List.mem_singleton, Event.cancel.injEq]
  constructor
  · rintro ⟨j', target, hj | rfl, htarget, hhead⟩
    · exact .inl ⟨j', target, hj, htarget, hhead⟩
    · cases hm.symm.trans htarget
      exact .inr hhead
  · rintro (⟨j', target, hj, htarget, hhead⟩ | hhead)
    · exact ⟨j', target, .inl hj, htarget, hhead⟩
    · exact ⟨j, m, .inr rfl, hm, hhead⟩

namespace Lawful

variable (h : Lawful events f makers)

include h

theorem token_eq_iff {t t' : Nat} {line line' : List Nat}
    (ht : TokenLine f.tokens.nodes makers t line) (ht' : TokenLine f.tokens.nodes makers t' line') :
    t = t' ↔ line.head? = line'.head? := by
  obtain ⟨-, maker, -, hmaker, hhead, -⟩ := ht.node
  obtain ⟨-, maker', -, hmaker', hhead', -⟩ := ht'.node
  rw [hhead, hhead', Option.some.injEq]
  constructor
  · rintro rfl
    exact Option.some.inj (hmaker.symm.trans hmaker')
  · rintro rfl
    have hnodup : makers.Nodup := h.increasing.imp Nat.ne_of_lt
    obtain ⟨hlt, -⟩ := List.getElem?_eq_some_iff.1 hmaker
    exact (List.getElem?_inj hlt hnodup).1 (hmaker.trans hmaker'.symm)

theorem maker_lt {token maker : Nat} (hmaker : makers[token]? = some maker) :
    maker < f.members.length :=
  h.made maker (List.mem_of_getElem? hmaker)

/-- The newest context has not been canceled yet. -/
theorem not_canceled : ¬ f.Canceled events f.members.length := by
  rintro ⟨j, target, -, htarget, hhead⟩
  obtain ⟨-, maker, -, hmaker, hmakerhead, -⟩ :=
    (h.descends target (List.mem_of_getElem? htarget)).line.node
  rw [hhead] at hmakerhead
  cases hmakerhead
  exact (h.maker_lt hmaker).false

theorem number_lt (hm : m ∈ f.members) (hl : l ∈ m.lineage) : l.number < f.members.length := by
  obtain ⟨n, hn⟩ := List.mem_iff_getElem?.1 hm
  obtain ⟨first, above, hlineage, hfirst, -⟩ := h.numbered n m hn
  have hlt : first.number < f.members.length := by
    rw [hfirst]
    exact (List.getElem?_eq_some_iff.1 hn).1
  have holder := (h.descends m hm).older
  rw [hlineage] at hl holder
  rcases List.mem_cons.1 hl with rfl | hl
  · exact hlt
  · exact ((List.pairwise_cons.1 holder).1 l hl).trans hlt

/-- A new context, whose token is an old one or a new one. -/
theorem add {tokens : Tokens} {makers' : List Nat} {above : Lineage}
    (hm : Descends tokens.nodes makers' m) (hlineage : m.lineage = l :: above)
    (hl : l.number = f.members.length)
    (habove : above = [] ∨ ∃ source ∈ f.members, source.lineage = above)
    (hlength : makers'.length = tokens.nodes.length) (hincreasing : makers'.Pairwise (· < ·))
    (hmade : ∀ n ∈ makers', n < f.members.length + 1)
    (hmono : ∀ token line, TokenLine f.tokens.nodes makers token line →
      TokenLine tokens.nodes makers' token line)
    (hcanceled : ∀ token line, TokenLine tokens.nodes makers' token line →
      (tokens.isCanceled token = true ↔ ∃ n ∈ line, f.Canceled events n))
    (hne : ∀ j, e ≠ Event.cancel j) :
    Lawful (events ++ [e]) ⟨tokens, f.members ++ [m]⟩ makers' := by
  have hlonger : (f.members ++ [m]).length = f.members.length + 1 := by simp
  refine ⟨hlength, hincreasing, ?_, ?_, ?_, ?_, ?_⟩
  · intro n hn
    rw [hlonger]
    exact hmade n hn
  · intro j hj
    have hold : Event.cancel j ∈ events := by
      rcases List.mem_append.1 hj with hj | hj
      · exact hj
      · exact absurd (List.mem_singleton.1 hj).symm (hne j)
    rw [hlonger]
    exact (h.known j hold).trans (Nat.lt_succ_self _)
  · intro n m' hm'
    rcases getElem?_concat_cases hm' with ⟨rfl, rfl⟩ | hm'
    · refine ⟨l, above, hlineage, hl, habove.imp id ?_⟩
      rintro ⟨source, hsource, rfl⟩
      exact ⟨source, List.mem_append_left _ hsource, rfl⟩
    · obtain ⟨l', above', hlineage', hl', habove'⟩ := h.numbered n m' hm'
      refine ⟨l', above', hlineage', hl', habove'.imp id ?_⟩
      rintro ⟨source, hsource, rfl⟩
      exact ⟨source, List.mem_append_left _ hsource, rfl⟩
  · intro m' hm'
    rcases List.mem_append.1 hm' with hm' | hm'
    · have hold := h.descends m' hm'
      exact ⟨hmono _ _ hold.line, hold.deadline, hold.requestId, hold.older⟩
    · rw [List.mem_singleton.1 hm']
      exact hm
  · intro token line hline
    rw [hcanceled token line hline]
    refine exists_congr fun n ↦ and_congr_right fun _ ↦ ?_
    rw [canceled_concat hne, canceled_append h.known]

section Derived

variable {ctx : Context} {time : Time} {how : Derivation}

/-- A context that shares its token with the one it is derived from. -/
theorem share (hm : m ∈ f.members)
    (hmakes : Link.makesToken ⟨f.members.length, time, some how⟩ = false)
    (htoken : ctx.token = m.ctx.token) (hdeadline : ctx.deadline = m.ctx.deadline)
    (hid : ctx.requestId =
      (Link.requestId? ⟨f.members.length, time, some how⟩).or m.ctx.requestId)
    (hne : ∀ j, e ≠ Event.cancel j) :
    Lawful (events ++ [e]) (f.add time m.lineage (some how) (ctx, f.tokens)) makers := by
  have hold := h.descends m hm
  have hroot := Link.isRoot_of_not_makesToken hmakes
  have hnone := Link.deadline?_of_not_makesToken hmakes
  refine h.add ⟨?_, ?_, ?_, ?_⟩ rfl rfl (.inr ⟨m, hm, rfl⟩) h.length_eq h.increasing ?_
    (fun _ _ hline ↦ hline) h.canceled hne
  · rw [Lineage.line_cons, hmakes, hroot, htoken]
    exact hold.line
  · rw [Lineage.deadlines_cons, hnone, hroot, hdeadline]
    exact hold.deadline
  · rw [hid, hold.requestId, Lineage.requestId?_cons]
  · exact List.pairwise_cons.2 ⟨fun l' hl' ↦ h.number_lt hm hl', hold.older⟩
  · intro n hn
    exact (h.made n hn).trans (Nat.lt_succ_self _)

/-- A new token is canceled if the one above it is. -/
theorem isCanceled_new {t : Token} (ht : t.canceled = t.parent.any f.tokens.isCanceled)
    {token : Nat} {line : List Nat}
    (hline : TokenLine (f.tokens.nodes ++ [t]) (makers ++ [f.members.length]) token line) :
    Tokens.isCanceled ⟨f.tokens.nodes ++ [t]⟩ token = true ↔
      ∃ n ∈ line, f.Canceled events n := by
  rcases Nat.lt_or_ge token f.tokens.nodes.length with hlt | hge
  · rw [Tokens.isCanceled, List.getElem?_append_left hlt]
    exact h.canceled token line (hline.of_append h.length_eq hlt)
  · have hnew : token = f.tokens.nodes.length := by
      have hlt := hline.lt_length
      rw [List.length_append, List.length_singleton] at hlt
      omega
    subst hnew
    have hmaker {maker : Nat}
        (made : (makers ++ [f.members.length])[f.tokens.nodes.length]? = some maker) :
        f.members.length = maker := by
      rw [← h.length_eq, List.getElem?_concat_length] at made
      exact Option.some.inj made
    rw [Tokens.isCanceled, List.getElem?_concat_length]
    change t.canceled = true ↔ _
    rw [ht]
    -- Nobody has canceled the context that makes the token, so what counts is what is above.
    cases hline with
    | root node made =>
      rw [List.getElem?_concat_length] at node
      cases node
      obtain rfl := hmaker made
      simpa using h.not_canceled
    | derived node made lt above =>
      rw [List.getElem?_concat_length] at node
      cases node
      obtain rfl := hmaker made
      have hparent := h.canceled _ _ (above.of_append h.length_eq lt)
      simpa [h.not_canceled] using hparent

/-- A context with a token of its own. -/
theorem mint {t : Token} (hm : Descends (f.tokens.nodes ++ [t]) (makers ++ [f.members.length]) m)
    {above : Lineage} (hlineage : m.lineage = l :: above) (hl : l.number = f.members.length)
    (habove : above = [] ∨ ∃ source ∈ f.members, source.lineage = above)
    (ht : t.canceled = t.parent.any f.tokens.isCanceled) (hne : ∀ j, e ≠ Event.cancel j) :
    Lawful (events ++ [e]) ⟨⟨f.tokens.nodes ++ [t]⟩, f.members ++ [m]⟩
      (makers ++ [f.members.length]) := by
  refine h.add hm hlineage hl habove ?_ ?_ ?_ (fun _ _ hline ↦ hline.append [t] _)
    (fun _ _ hline ↦ h.isCanceled_new ht hline) hne
  · rw [List.length_append, List.length_append, h.length_eq]
    rfl
  · refine List.pairwise_append.2 ⟨h.increasing, List.pairwise_singleton _ _, fun n hn n' hn' ↦ ?_⟩
    rw [List.mem_singleton.1 hn']
    exact h.made n hn
  · intro n hn
    rcases List.mem_append.1 hn with hn | hn
    · exact (h.made n hn).trans (Nat.lt_succ_self _)
    · rw [List.mem_singleton.1 hn]
      exact Nat.lt_succ_self _

/-- A context with a token that nothing else cancels. -/
theorem detach {id : Option String} {above : Lineage} (how : Option Derivation)
    (hline : Lineage.line (⟨f.members.length, time, how⟩ :: above) = [f.members.length])
    (hdeadlines : Lineage.deadlines (⟨f.members.length, time, how⟩ :: above) = [])
    (hid : id = Lineage.requestId? (⟨f.members.length, time, how⟩ :: above))
    (habove : above = [] ∨ ∃ source ∈ f.members, source.lineage = above)
    (hne : ∀ j, e ≠ Event.cancel j) :
    ∃ makers', Lawful (events ++ [e])
      (f.add time above how (⟨f.tokens.root.1, none, id⟩, f.tokens.root.2)) makers' := by
  refine ⟨_, h.mint ⟨?_, ?_, hid, ?_⟩ rfl rfl habove rfl hne⟩
  · rw [hline]
    refine .root List.getElem?_concat_length ?_
    rw [Tokens.root, ← h.length_eq]
    exact List.getElem?_concat_length
  · rw [hdeadlines]
    rfl
  · rcases habove with rfl | ⟨source, hsource, rfl⟩
    · exact List.pairwise_singleton _ _
    · have hold := (h.descends source hsource).older
      exact List.pairwise_cons.2 ⟨fun l' hl' ↦ h.number_lt hsource hl', hold⟩

/-- A context with a token below that of the one it is derived from. -/
theorem below (hm : m ∈ f.members)
    (hline : Lineage.line (⟨f.members.length, time, some how⟩ :: m.lineage) =
      f.members.length :: m.lineage.line)
    (htoken : ctx.token = f.tokens.nodes.length)
    (hdeadline : ctx.deadline =
      (Lineage.deadlines (⟨f.members.length, time, some how⟩ :: m.lineage)).min?)
    (hid : ctx.requestId =
      (Link.requestId? ⟨f.members.length, time, some how⟩).or m.ctx.requestId)
    (hne : ∀ j, e ≠ Event.cancel j) :
    ∃ makers', Lawful (events ++ [e])
      (f.add time m.lineage (some how) (ctx, (f.tokens.child m.ctx.token).2)) makers' := by
  have hold := h.descends m hm
  refine ⟨_, h.mint ⟨?_, hdeadline, ?_, ?_⟩ rfl rfl (.inr ⟨m, hm, rfl⟩) rfl hne⟩
  · rw [hline, htoken]
    refine .derived List.getElem?_concat_length ?_ hold.line.lt_length (hold.line.append _ _)
    rw [← h.length_eq]
    exact List.getElem?_concat_length
  · rw [hid, hold.requestId, Lineage.requestId?_cons]
  · exact List.pairwise_cons.2 ⟨fun l' hl' ↦ h.number_lt hm hl', hold.older⟩

/-- Of two deadlines the earlier one stays. -/
theorem withDeadline (hm : m ∈ f.members) (deadline : Time)
    (hlink : Link.deadline? ⟨f.members.length, time, some how⟩ = some deadline)
    (hne : ∀ j, e ≠ Event.cancel j) :
    ∃ makers', Lawful (events ++ [e])
      (f.add time m.lineage (some how) (m.ctx.withDeadline deadline f.tokens)) makers' := by
  have hhow : (∃ timeout, how = .timeout timeout) ∨ ∃ deadline, how = .deadline deadline := by
    cases how with
    | timeout timeout => exact .inl ⟨timeout, rfl⟩
    | deadline deadline => exact .inr ⟨deadline, rfl⟩
    | _ => cases hlink
  have hroot : Link.isRoot ⟨f.members.length, time, some how⟩ = false := by
    rcases hhow with ⟨_, rfl⟩ | ⟨_, rfl⟩ <;> rfl
  refine h.below hm ?_ rfl ?_ ?_ hne
  · rcases hhow with ⟨_, rfl⟩ | ⟨_, rfl⟩ <;> rfl
  · rw [Lineage.deadlines_cons, hlink, hroot]
    change some _ = (deadline :: m.lineage.deadlines).min?
    rw [List.min?_cons, ← (h.descends m hm).deadline]
    cases m.ctx.deadline with
    | none => rfl
    | some current =>
      simp only [Option.elim_some, Option.some.injEq]
      split
      · rename_i hlt
        exact (Nat.min_eq_right hlt.le).symm
      · rename_i hge
        exact (Nat.min_eq_left (Nat.le_of_not_lt hge)).symm
  · rcases hhow with ⟨_, rfl⟩ | ⟨_, rfl⟩ <;> rfl

end Derived

theorem derive (hm : m ∈ f.members) (time : Time) (how : Derivation)
    (hne : ∀ j, e ≠ Event.cancel j) :
    ∃ makers', Lawful (events ++ [e])
      (f.add time m.lineage (some how) (m.ctx.derive time f.tokens how)) makers' := by
  have hold := h.descends m hm
  cases how with
  | clone => exact ⟨makers, h.share hm rfl rfl rfl rfl hne⟩
  | requestId id => exact ⟨makers, h.share hm rfl rfl rfl rfl hne⟩
  | child => exact h.below hm rfl rfl hold.deadline rfl hne
  | timeout timeout => exact h.withDeadline hm (time + timeout) rfl hne
  | deadline deadline => exact h.withDeadline hm deadline rfl hne
  | withoutCancel => exact h.detach _ rfl rfl hold.requestId (.inr ⟨m, hm, rfl⟩) hne

/-- Canceling a context cancels its token and those below it. -/
theorem isCanceled_cancel {j token : Nat} {line : List Nat} (hm : f.members[j]? = some m)
    (hline : TokenLine f.tokens.nodes makers token line) :
    (f.tokens.cancel m.ctx.token).isCanceled token = true ↔
      (∃ n ∈ line, f.Canceled events n) ∨ ∃ n ∈ line, m.lineage.line.head? = some n := by
  have htarget := (h.descends m (List.mem_of_getElem? hm)).line
  have hself {t : Nat} {line : List Nat} (ht : TokenLine f.tokens.nodes makers t line) :
      t = m.ctx.token ↔ m.lineage.line.head? = line.head? := by
    rw [h.token_eq_iff ht htarget]
    exact eq_comm
  induction hline with
  | @root token maker canceled node made =>
    have hbefore := h.canceled token [maker] (.root node made)
    rw [Tokens.isCanceled, node] at hbefore
    have hnone (p : Nat) (hp : (none : Option Nat) = some p) : p < token := by cases hp
    rw [Tokens.isCanceled_cancel_eq node hnone, Bool.or_eq_true, Bool.or_eq_true, beq_iff_eq,
      hself (.root node made), hbefore]
    simp
  | @derived token parent maker canceled line node made lt above ih =>
    have hbefore := h.canceled token (maker :: line) (.derived node made lt above)
    rw [Tokens.isCanceled, node] at hbefore
    have hparent (p : Nat) (hp : some parent = some p) : p < token := by
      cases hp
      exact lt
    rw [Tokens.isCanceled_cancel_eq node hparent, Bool.or_eq_true, Bool.or_eq_true, beq_iff_eq,
      hself (.derived node made lt above), hbefore, Option.any_some]
    refine (or_congr Iff.rfl ih).trans ?_
    simp only [List.exists_mem_cons_iff, List.head?_cons]
    constructor
    · rintro ((hcanceled | hmaker) | hcanceled | habove)
      · exact .inl hcanceled
      · exact .inr (.inl hmaker)
      · exact .inl (.inr hcanceled)
      · exact .inr (.inr habove)
    · rintro (hcanceled | hmaker | habove)
      · exact .inl (.inl hcanceled)
      · exact .inl (.inr hmaker)
      · exact .inr (.inr habove)

theorem cancel {j : Nat} (hm : f.members[j]? = some m) :
    Lawful (events ++ [.cancel j]) { f with tokens := m.ctx.cancel f.tokens } makers := by
  have hlines := f.tokens.line_cancel_iff makers m.ctx.token
  refine ⟨?_, h.increasing, h.made, ?_, h.numbered, ?_, ?_⟩
  · rw [h.length_eq]
    exact (f.tokens.length_cancel m.ctx.token).symm
  · intro j' hj'
    rcases List.mem_append.1 hj' with hj' | hj'
    · exact h.known j' hj'
    · cases List.mem_singleton.1 hj'
      exact (List.getElem?_eq_some_iff.1 hm).1
  · intro m' hm'
    have hold := h.descends m' hm'
    exact ⟨(hlines _ _).2 hold.line, hold.deadline, hold.requestId, hold.older⟩
  · intro token line hline
    refine (h.isCanceled_cancel hm ((hlines token line).1 hline)).trans ?_
    rw [← exists_or]
    refine exists_congr fun n ↦ ?_
    rw [← and_or_left, canceled_cancel _ hm]

theorem step {f' : ContextFamily} (hs : f.step now e = some f') :
    ∃ makers', Lawful (events ++ [e]) f' makers' := by
  cases e with
  | background =>
    cases hs
    exact h.detach none rfl rfl rfl (.inl rfl) fun j hj ↦ by cases hj
  | derive source how =>
    obtain ⟨m, hm, hs⟩ := Option.bind_eq_some_iff.1 hs
    cases hs
    exact h.derive (List.mem_of_getElem? hm) now how fun j hj ↦ by cases hj
  | cancel target =>
    obtain ⟨m, hm, hs⟩ := Option.bind_eq_some_iff.1 hs
    cases hs
    exact ⟨makers, h.cancel hm⟩

end Lawful

theorem lawful_new : Lawful [] {} [] := by
  refine ⟨rfl, .nil, ?_, ?_, ?_, ?_, ?_⟩
  · intro n hn
    cases hn
  · intro j hj
    cases hj
  · intro n m hm
    cases hm
  · intro m hm
    cases hm
  · intro token line hline
    exact absurd hline.lt_length (Nat.not_lt_zero token)

theorem lawful_of_run {start : Time} {y : Time × ContextFamily} (run : Run (start, {}) events y) :
    ∃ makers, Lawful events y.2 makers := by
  induction run with
  | refl => exact ⟨[], lawful_new⟩
  | wait _ _ ih => exact ih
  | event _ e hs ih =>
    obtain ⟨makers, hlawful⟩ := ih
    exact hlawful.step hs

namespace Lawful

variable (h : Lawful events f makers)

include h

theorem err_iff (hm : m ∈ f.members) (t : Time) :
    (m.ctx.err f.tokens t = some .canceled ↔ ∃ n ∈ m.lineage.line, f.Canceled events n) ∧
    (m.ctx.err f.tokens t = some .deadlineExceeded ↔
      (¬ ∃ n ∈ m.lineage.line, f.Canceled events n) ∧
        ∃ d, m.lineage.deadlines.min? = some d ∧ d ≤ t) ∧
    (m.ctx.err f.tokens t = none ↔ (¬ ∃ n ∈ m.lineage.line, f.Canceled events n) ∧
      ¬ ∃ d, m.lineage.deadlines.min? = some d ∧ d ≤ t) := by
  have hdescends := h.descends m hm
  have hcanceled : m.ctx.endedBy f.tokens t .canceled = true ↔
      ∃ n ∈ m.lineage.line, f.Canceled events n := h.canceled _ _ hdescends.line
  have hexpired : m.ctx.endedBy f.tokens t .deadlineExceeded = true ↔
      ∃ d, m.lineage.deadlines.min? = some d ∧ d ≤ t := by
    rw [← hdescends.deadline]
    cases hdeadline : m.ctx.deadline <;> simp [Context.endedBy, Context.expired, hdeadline]
  rw [← hcanceled, ← hexpired, Bool.not_eq_true, Bool.not_eq_true]
  exact ⟨Context.err_eq_canceled_iff, Context.err_eq_deadlineExceeded_iff, Context.err_eq_none_iff⟩

/-- A deadline that is handed down becomes no later. -/
theorem deadline_le {m' : FamilyMember} (hm : m ∈ f.members) (hm' : m' ∈ f.members)
    {newer : Lineage} (hlineage : m.lineage = newer ++ m'.lineage)
    (hroot : ∀ l ∈ newer, l.isRoot = false) {d' : Time} (hd' : m'.ctx.deadline = some d') :
    ∃ d, m.ctx.deadline = some d ∧ d ≤ d' := by
  rw [(h.descends m' hm').deadline] at hd'
  have hmem : d' ∈ m.lineage.deadlines := by
    rw [hlineage, Lineage.deadlines_append hroot]
    exact List.mem_append_right _ (List.min?_mem hd')
  rw [(h.descends m hm).deadline]
  obtain ⟨d, hd⟩ := Option.isSome_iff_exists.1 (List.isSome_min?_of_mem hmem)
  exact ⟨d, hd, (List.min?_eq_some_iff.1 hd).2 d' hmem⟩

/-- Canceling a context does nothing to one above it that has another token. -/
theorem isCanceled_cancel_of_above {j : Nat} {m' : FamilyMember} (hm : f.members[j]? = some m)
    (hm' : m' ∈ f.members) (habove : m'.lineage <:+ m.lineage)
    (hne : m'.ctx.token ≠ m.ctx.token) :
    (f.tokens.cancel m.ctx.token).isCanceled m'.ctx.token =
      f.tokens.isCanceled m'.ctx.token := by
  have hline := (h.descends m (List.mem_of_getElem? hm)).line
  have hline' := (h.descends m' hm').line
  have hother : ¬ ∃ n ∈ m'.lineage.line, m.lineage.line.head? = some n := by
    obtain ⟨newer, hlineage⟩ := habove
    have holder := (h.descends m (List.mem_of_getElem? hm)).older
    rw [← hlineage] at holder
    rintro ⟨n, hn, hhead⟩
    rcases Lineage.line_append_cases holder with hsame | ⟨maker, hmaker, hnot⟩
    · rw [hlineage] at hsame
      exact hne ((h.token_eq_iff hline' hline).2 (by rw [hsame]))
    · rw [hlineage, hhead] at hmaker
      cases hmaker
      exact hnot hn
  rw [Bool.eq_iff_iff, h.isCanceled_cancel hm hline', h.canceled _ _ hline', or_iff_left hother]

end Lawful

/-- Whatever contexts are derived from one another and canceled, and whenever: what ends a context
follows from its lineage. A derived context has no later deadline, and cancellation does not go
up. -/
theorem err_follows_lineage {start : Time} (run : Run (start, {}) events (now, f)) :
    (∀ (n : Nat) (m : FamilyMember), f.members[n]? = some m →
      (m.ctx.err f.tokens now = some .canceled ↔
        ∃ maker ∈ m.lineage.line, f.Canceled events maker) ∧
      (m.ctx.err f.tokens now = some .deadlineExceeded ↔
        (¬ ∃ maker ∈ m.lineage.line, f.Canceled events maker) ∧
          ∃ d, m.lineage.deadlines.min? = some d ∧ d ≤ now) ∧
      (m.ctx.err f.tokens now = none ↔
        (¬ ∃ maker ∈ m.lineage.line, f.Canceled events maker) ∧
          ¬ ∃ d, m.lineage.deadlines.min? = some d ∧ d ≤ now) ∧
      m.ctx.deadline = m.lineage.deadlines.min? ∧
      m.ctx.requestId = m.lineage.requestId? ∧
      ∃ l above, m.lineage = l :: above ∧ l.number = n ∧
        (above = [] ∨ ∃ source ∈ f.members, source.lineage = above)) ∧
    (∀ m ∈ f.members, ∀ m' ∈ f.members,
      m.ctx.token = m'.ctx.token ↔ m.lineage.line.head? = m'.lineage.line.head?) ∧
    (∀ m ∈ f.members, ∀ m' ∈ f.members, ∀ newer, m.lineage = newer ++ m'.lineage →
      (∀ l ∈ newer, l.isRoot = false) →
      ∀ d', m'.ctx.deadline = some d' → ∃ d, m.ctx.deadline = some d ∧ d ≤ d') ∧
    ∀ (j : Nat) (m : FamilyMember), f.members[j]? = some m →
      ∀ m' ∈ f.members, m'.lineage <:+ m.lineage → m'.ctx.token ≠ m.ctx.token →
      ∀ f', f.step now (.cancel j) = some f' →
        ∀ t, m'.ctx.err f'.tokens t = m'.ctx.err f.tokens t := by
  obtain ⟨makers, h⟩ := lawful_of_run run
  refine ⟨fun n m hm ↦ ?_, fun m hm m' hm' ↦ ?_, fun m hm m' hm' newer hlineage hroot d' hd' ↦ ?_,
    fun j m hm m' hm' habove hne f' hs t ↦ ?_⟩
  · have hmem := List.mem_of_getElem? hm
    obtain ⟨hcanceled, hexceeded, hlive⟩ := h.err_iff hmem now
    have hdescends := h.descends m hmem
    exact ⟨hcanceled, hexceeded, hlive, hdescends.deadline, hdescends.requestId, h.numbered n m hm⟩
  · exact h.token_eq_iff (h.descends m hm).line (h.descends m' hm').line
  · exact h.deadline_le hm hm' hlineage hroot hd'
  · obtain ⟨target, htarget, hs⟩ := Option.bind_eq_some_iff.1 hs
    cases hm.symm.trans htarget
    cases hs
    have hcanceled := h.isCanceled_cancel_of_above hm hm' habove hne
    simp only [Context.err, Context.cancel, hcanceled]

/-- The clone of a child of a named context with a timeout is canceled, and the timeout passes. Work
detached from the named context goes on under its name. -/
theorem detached_context_goes_on :
    ∃ f, Run (0, {}) [.background, .derive 0 (.timeout 10), .derive 1 (.requestId "req-1"),
        .derive 2 .child, .derive 3 .clone, .derive 2 .withoutCancel, .cancel 4, .derive 5 .child]
        (12, f) ∧
      (∃ m, f.members[3]? = some m ∧ m.ctx.err f.tokens 12 = some .canceled) ∧
      (∃ m, f.members[2]? = some m ∧ m.ctx.err f.tokens 12 = some .deadlineExceeded) ∧
      ∃ m, f.members[6]? = some m ∧ m.ctx.err f.tokens 12 = none ∧
        m.ctx.requestId = some "req-1" := by
  obtain ⟨f, hplay, hmembers⟩ : ∃ f, TimedRun.play step (0, {})
        [(0, .background), (0, .derive 0 (.timeout 10)), (0, .derive 1 (.requestId "req-1")),
          (1, .derive 2 .child), (0, .derive 3 .clone), (0, .derive 2 .withoutCancel),
          (2, .cancel 4), (9, .derive 5 .child)] = some (12, f) ∧
      f.members.map (fun m ↦ (m.lineage.line, m.lineage.deadlines, m.lineage.requestId?)) =
        [([0], [], none), ([1, 0], [10], none), ([1, 0], [10], some "req-1"),
          ([3, 1, 0], [10], some "req-1"), ([3, 1, 0], [10], some "req-1"),
          ([5], [], some "req-1"), ([6, 5], [], some "req-1")] :=
    ⟨_, rfl, rfl⟩
  have run := TimedRun.of_play hplay
  obtain ⟨hmember, -⟩ := err_follows_lineage run
  have hat {n : Nat} {x : List Nat × List Time × Option String}
      (hx : (f.members.map fun m ↦
        (m.lineage.line, m.lineage.deadlines, m.lineage.requestId?))[n]? = some x) :
      ∃ m, f.members[n]? = some m ∧ m.lineage.line = x.1 ∧ m.lineage.deadlines = x.2.1 ∧
        m.lineage.requestId? = x.2.2 := by
    rw [List.getElem?_map] at hx
    obtain ⟨m, hm, rfl⟩ := Option.map_eq_some_iff.1 hx
    exact ⟨m, hm, rfl, rfl, rfl⟩
  rw [hmembers] at hat
  obtain ⟨named, hnamed, hnamedline, hnameddeadlines, -⟩ := hat (n := 2) rfl
  obtain ⟨child, hchild, hchildline, -, -⟩ := hat (n := 3) rfl
  obtain ⟨clone, hclone, hcloneline, -, -⟩ := hat (n := 4) rfl
  obtain ⟨work, hwork, hworkline, hworkdeadlines, hworkid⟩ := hat (n := 6) rfl
  -- The only context that was canceled has the token that the third one made.
  have hnever {events : List Event} (hevents : ∀ j, .cancel j ∈ events → j = 4) {line : List Nat}
      (hline : 3 ∉ line) : ¬ ∃ maker ∈ line, f.Canceled events maker := by
    rintro ⟨maker, hmaker, j, target, hj, htarget, hhead⟩
    rw [hevents j hj, hclone] at htarget
    cases htarget
    rw [hcloneline] at hhead
    cases hhead
    exact hline hmaker
  have hchildended : child.ctx.err f.tokens 12 = some .canceled :=
    (hmember 3 child hchild).1.2
      ⟨3, by simp [hchildline], 4, clone, by simp, hclone, by rw [hcloneline]; rfl⟩
  have hnamedended : named.ctx.err f.tokens 12 = some .deadlineExceeded :=
    (hmember 2 named hnamed).2.1.2
      ⟨hnever (by simp) (by simp [hnamedline]), 10, by rw [hnameddeadlines]; rfl, by decide⟩
  have hworklive : work.ctx.err f.tokens 12 = none := by
    refine (hmember 6 work hwork).2.2.1.2 ⟨hnever (by simp) (by simp [hworkline]), ?_⟩
    rintro ⟨d, hd, -⟩
    rw [hworkdeadlines] at hd
    cases hd
  exact ⟨f, run, ⟨child, hchild, hchildended⟩, ⟨named, hnamed, hnamedended⟩, work, hwork,
    hworklive, (hmember 6 work hwork).2.2.2.2.1.trans hworkid⟩

end ContextFamily

end Outbound
