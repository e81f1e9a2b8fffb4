import CodeChart.Proofs.Builder.Declaration
import CodeChart.Proofs.Builder.Outline

/-!
# Blocks opened by jumps

A jump opens no scope, whatever stands in its line.  If a block stays open there, the brace that
closes it leaves the scope around the jump instead.

* `Builder.SameScopes`   the same scopes and open switches, but for the node of the innermost scope;
* `Clause`               a statement whose braces match, or a header, clauses and a closing brace;
* `sameScopes_clauseStatements`   clauses leave the scopes as they were, ignored or not;
* `Builder.jumpBlock_restores_iff`   a jump that opens a block, clauses and the closing brace come
                         to leaving one scope, so all is as before at the bottom only.
-/

namespace CodeChart

/-! ## the same scopes -/

structure Builder.SameScopes (b b' : Builder) : Prop where
  kind : b'.top.kind = b.top.kind
  outer : b'.outer = b.outer
  switches : b'.switches = b.switches
  ignored : b'.ignored = b.ignored

namespace Builder.SameScopes

variable {a b c : Builder}

theorem refl (b : Builder) : b.SameScopes b := ⟨rfl, rfl, rfl, rfl⟩

theorem trans (hab : a.SameScopes b) (hbc : b.SameScopes c) : a.SameScopes c where
  kind := hbc.kind.trans hab.kind
  outer := hbc.outer.trans hab.outer
  switches := hbc.switches.trans hab.switches
  ignored := hbc.ignored.trans hab.ignored

theorem depth_eq (h : a.SameScopes b) : b.depth = a.depth := by
  rw [Builder.depth, h.outer, Builder.depth]

theorem scopeKinds_eq (h : a.SameScopes b) : b.scopeKinds = a.scopeKinds := by
  simp only [Builder.scopeKinds, Builder.scopes, List.reverse_cons, List.map_append, List.map_cons,
    List.map_nil, h.outer, h.kind]

theorem switchesOutside_eq (h : a.SameScopes b) : b.switchesOutside = a.switchesOutside := by
  unfold Builder.switchesOutside
  rw [h.switches, h.depth_eq]

theorem pop (h : a.SameScopes b) : a.pop.SameScopes b.pop := by
  rcases a.pop_cases with ⟨houter, hpop⟩ | ⟨s, rest, houter, hpop⟩
  · rw [hpop, Builder.pop_of_bottom (h.outer.trans houter)]
    exact h
  · rw [hpop, Builder.pop_of_outer (h.outer.trans houter)]
    exact ⟨rfl, rfl, h.switchesOutside_eq, h.ignored⟩

end Builder.SameScopes

/-! ## jumps -/

theorem Kind.exists_jumpWord {t : Text} (h : Kind.ofText t = .jump) : ∃ w ∈ jumpWords, w <+: t := by
  have hany : startsWithAny jumpWords t = true := by
    cases hany : startsWithAny jumpWords t with
    | true => rfl
    | false =>
      rw [Kind.ofText, hany, if_neg Bool.false_ne_true] at h
      repeat' split at h
      all_goals cases h
  obtain ⟨w, hw, hstart⟩ := List.any_eq_true.1 hany
  obtain ⟨r, hr⟩ := Option.isSome_iff_exists.1 hstart
  exact ⟨w, hw, ⟨r, (afterWord?_eq_some_iff.1 hr).1.symm⟩⟩

/-- no jump starts like anything that the braces are read for -/
theorem Kind.not_prefix_of_jump {t : Text} (h : Kind.ofText t = .jump) :
    ∀ v ∈ declarationWords ++ skippedStarts ++ [['}'], ['{']], ¬ v <+: t := by
  have hapart : ∀ w ∈ jumpWords, ∀ v ∈ declarationWords ++ skippedStarts ++ [['}'], ['{']],
      ¬ w <+: v ∧ ¬ v <+: w := by decide
  obtain ⟨w, hw, hwt⟩ := Kind.exists_jumpWord h
  intro v hv hvt
  rcases List.prefix_or_prefix_of_prefix hwt hvt with hwv | hvw
  · exact (hapart w hw v hv).1 hwv
  · exact (hapart w hw v hv).2 hvw

theorem isOrdinary_of_jump {t : Text} (h : Kind.ofText t = .jump) (hb : 0 ≤ braceBalance t) :
    IsOrdinary t := by
  have hstart := Kind.not_prefix_of_jump h
  refine ⟨?_, ?_, ?_, ?_⟩
  · rw [declares, List.any_eq_false]
    intro v hv hd
    obtain ⟨hbegins, _⟩ := Bool.and_eq_true_iff.1 hd
    exact hstart v (by simp [hv]) (List.isPrefixOf_iff_prefix.1 hbegins)
  · rw [isSkipped, List.any_eq_false]
    intro v hv hbegins
    exact hstart v (by simp [hv]) (List.isPrefixOf_iff_prefix.1 hbegins)
  · rintro rfl
    exact hstart ['{'] (by decide) (List.prefix_refl _)
  · have hhead : t.head? ≠ some '}' := by
      intro hhead
      obtain ⟨u, rfl⟩ := List.head?_eq_some_iff.1 hhead
      exact hstart ['}'] (by decide) (List.prefix_append ['}'] u)
    have hneg : ¬ braceBalance t < 0 := by omega
    simp [closesScope, hhead, hneg]

/-- a jump leaves the scopes alone, even if a block stays open in its line -/
theorem Builder.sameScopes_feed_jump {b : Builder} (hi : b.ignored = 0) {s : Statement}
    (hk : Kind.ofText s.text = .jump) (hb : 0 ≤ braceBalance s.text) : b.SameScopes (b.feed s) := by
  rw [Builder.feed_of_ordinary hi (isOrdinary_of_jump hk hb), hk, Builder.add,
    Builder.leaveFor_of_stays rfl, Kind.placement, Builder.settle_stay, Builder.draw_eq]
  exact ⟨rfl, rfl, rfl, rfl⟩

/-! ## clauses -/

/-- a plain statement or a jump whose braces match, if it has any -/
structure IsSimple (t : Text) : Prop where
  kind : Kind.ofText t = .plain ∨ Kind.ofText t = .jump
  balance : braceBalance t = 0
  notCloser : t.head? ≠ some '}'

/-- the header of a block: the one of a declaration, or a statement that opens a scope -/
def IsHeader (t : Text) : Prop := IsOpener t ∨ (declares t = true ∧ braceBalance t = 1)

instance (t : Text) : Decidable (IsSimple t) :=
  decidable_of_iff ((Kind.ofText t = .plain ∨ Kind.ofText t = .jump) ∧ braceBalance t = 0 ∧
      t.head? ≠ some '}')
    ⟨fun ⟨hk, hb, hc⟩ => ⟨hk, hb, hc⟩, fun ⟨hk, hb, hc⟩ => ⟨hk, hb, hc⟩⟩

instance (t : Text) : Decidable (IsHeader t) :=
  inferInstanceAs (Decidable (IsOpener t ∨ (declares t = true ∧ braceBalance t = 1)))

inductive Clause where
  | simple (s : Statement) (h : IsSimple s.text)
  | block (header : Statement) (hh : IsHeader header.text) (body : List Clause)
    (closer : Statement) (hc : IsCloser closer.text)

mutual

/-- the statements of a clause in the order in which they are written -/
def Clause.statements : Clause → List Statement
  | .simple s _ => [s]
  | .block header _ body closer _ => header :: (clauseStatements body ++ [closer])

def clauseStatements : List Clause → List Statement
  | [] => []
  | c :: rest => c.statements ++ clauseStatements rest

end

/-! ## what counts in a declaration -/

theorem IsSimple.countedBraces_eq {t : Text} (h : IsSimple t) : countedBraces t = 0 := by
  simp [countedBraces, opensScope, h.balance]

theorem IsHeader.countedBraces_eq {t : Text} (h : IsHeader t) : countedBraces t = 1 := by
  rcases h with ho | ⟨hd, hb⟩
  · simp [countedBraces, ho.text.declares, ho.text.skipped, ho.text.balance]
  · exact countedBraces_header hd hb

theorem IsCloser.countedBraces_eq {t : Text} (h : IsCloser t) : countedBraces t = -1 := by
  rcases h with rfl | rfl <;> decide

/-! ## clauses leave the scopes as they were -/

theorem Builder.sameScopes_feed_simple {b : Builder} {s : Statement} (hs : IsSimple s.text) :
    b.SameScopes (b.feed s) := by
  by_cases hi : 0 < b.ignored
  · rw [Builder.feed_ignoring hi, hs.countedBraces_eq, Int.add_zero, Int.toNat_natCast]
    exact .refl b
  have hi : b.ignored = 0 := Nat.eq_zero_of_not_pos hi
  rcases hs.kind with hk | hk
  · by_cases hd : declares s.text = true
    · have hfeed : b.feed s = b := by
        simp [Builder.feed, Builder.braces, hd, opensScope, hs.balance]
      rw [hfeed]
      exact .refl b
    by_cases hskip : isSkipped s.text = true
    · have hfeed : b.feed s = b := by
        simp [Builder.feed, Builder.braces, hd, hskip]
      rw [hfeed]
      exact .refl b
    have hordinary : IsOrdinary s.text := by
      refine ⟨Bool.eq_false_iff.2 hd, Bool.eq_false_iff.2 hskip, ?_, ?_⟩
      · intro hbrace
        have hbalance := hs.balance
        rw [hbrace] at hbalance
        cases hbalance
      · simp [closesScope, hs.notCloser, hs.balance]
    rw [Builder.feed_of_ordinary hi hordinary, hk, Builder.add, Builder.leaveFor_of_stays rfl,
      Kind.placement, ofSibling_of_balanced hs.balance, Builder.settle_chain, Builder.draw_eq]
    exact ⟨rfl, rfl, rfl, rfl⟩
  · exact Builder.sameScopes_feed_jump hi hk (Int.le_of_eq hs.balance.symm)

/-- a header, something that leaves the scopes inside the block alone, and the closing brace -/
theorem Builder.Sound.sameScopes_block {b d : Builder} (h : b.Sound) {header closer : Statement}
    (hh : IsHeader header.text) (hc : IsCloser closer.text)
    (hbody : (b.feed header).SameScopes d) : b.SameScopes (d.feed closer) := by
  -- where the header is only counted, so is the closing brace
  have hcounted : b.feed header = { b with ignored := b.ignored + 1 } →
      b.SameScopes (d.feed closer) := by
    intro hfeed
    rw [hfeed] at hbody
    have hpos : 0 < d.ignored := by
      rw [hbody.ignored]
      exact Nat.succ_pos _
    have hback : ((b.ignored + 1 : Nat) + (-1) : Int).toNat = b.ignored := by omega
    rw [Builder.feed_ignoring hpos, hc.countedBraces_eq, hbody.ignored]
    exact ⟨hbody.kind, hbody.outer, hbody.switches, hback⟩
  by_cases hi : 0 < b.ignored
  · refine hcounted ?_
    rw [Builder.feed_ignoring hi, hh.countedBraces_eq]
    rfl
  have hi : b.ignored = 0 := Nat.eq_zero_of_not_pos hi
  rcases hh with ho | ⟨hdeclares, hbalance⟩
  · have hin := h.feed_opener hi ho
    have houter : d.outer = b.top :: b.outer := hbody.outer.trans hin.outer
    have hignored : d.ignored = 0 := hbody.ignored.trans hin.ignored
    rw [Builder.feed_closer hignored hc, Builder.pop_of_outer houter]
    exact ⟨rfl, rfl, hbody.switchesOutside_eq.trans hin.switchesOutside, hignored.trans hi.symm⟩
  · refine hcounted ?_
    rw [Builder.feed_header_ignoring hi hdeclares hbalance, hi]

mutual

theorem Clause.sameScopes (c : Clause) {b : Builder} (h : b.Sound) :
    b.SameScopes (b.feedAll c.statements) := by
  match c with
  | .simple s hs => exact Builder.sameScopes_feed_simple hs
  | .block header hh body closer hc =>
    have hbody := sameScopes_clauseStatements body (h.feed header)
    show b.SameScopes (b.feedAll (header :: (clauseStatements body ++ [closer])))
    rw [Builder.feedAll_cons, Builder.feedAll_append]
    exact h.sameScopes_block hh hc hbody

theorem sameScopes_clauseStatements (body : List Clause) {b : Builder} (h : b.Sound) :
    b.SameScopes (b.feedAll (clauseStatements body)) := by
  match body with
  | [] => exact .refl b
  | c :: rest =>
    show b.SameScopes (b.feedAll (c.statements ++ clauseStatements rest))
    rw [Builder.feedAll_append]
    exact (c.sameScopes h).trans (sameScopes_clauseStatements rest (h.feedAll c.statements))

end

/-! ## the block of a jump -/

/-- the scopes and the open switches are what they were -/
structure Builder.Restores (b b' : Builder) : Prop where
  scopeKinds : b'.scopeKinds = b.scopeKinds
  switches : b'.switches = b.switches
  depth : b'.depth = b.depth

theorem Builder.depth_pop (b : Builder) : b.pop.depth = max 1 (b.depth - 1) := by
  rw [Builder.depth, Builder.outer_pop, List.length_tail, Builder.depth]
  omega

/-- **a jump that opens a block, any clauses and the closing brace leave one scope**, the innermost
one around the jump; so scopes and switches are as before if and only if there is none to leave -/
theorem Builder.jumpBlock_restores_iff {b : Builder} (hb : b.Reachable) (hi : b.ignored = 0)
    {jump closer : Statement} (hk : Kind.ofText jump.text = .jump)
    (ho : braceBalance jump.text = 1) (body : List Clause) (hc : IsCloser closer.text) :
    b.pop.SameScopes (b.feedAll (jump :: (clauseStatements body ++ [closer]))) ∧
    (b.Restores (b.feedAll (jump :: (clauseStatements body ++ [closer]))) ↔ b.depth = 1) := by
  have hjump : b.SameScopes (b.feed jump) :=
    Builder.sameScopes_feed_jump hi hk (by rw [ho]; decide)
  have hinside : b.SameScopes ((b.feed jump).feedAll (clauseStatements body)) :=
    hjump.trans (sameScopes_clauseStatements body (hb.sound.feed jump))
  have hall : b.pop.SameScopes (b.feedAll (jump :: (clauseStatements body ++ [closer]))) := by
    rw [Builder.feedAll_cons, Builder.feedAll_append, Builder.feedAll_cons, Builder.feedAll_nil,
      Builder.feed_closer (hinside.ignored.trans hi) hc]
    exact hinside.pop
  refine ⟨hall, ?_, ?_⟩
  · intro hr
    have hdepth := hall.depth_eq
    rw [hr.depth, Builder.depth_pop] at hdepth
    omega
  · intro hbottom
    rw [Builder.pop_of_depth hbottom] at hall
    exact ⟨hall.scopeKinds_eq, hall.switches, hall.depth_eq⟩

/-- a conditional with a loop, a function and a declaration -/
def lambdaBody : List Clause := [
  .block ⟨"if (x) \x7b".toList, 11⟩ (by decide +kernel) [
    .block ⟨"for (;;) \x7b".toList, 12⟩ (by decide +kernel)
      [.simple ⟨"y();".toList, 13⟩ (by decide +kernel),
        .simple ⟨"break;".toList, 14⟩ (by decide +kernel)]
      ⟨['}'], 15⟩ (by decide +kernel)] ⟨['}'], 16⟩ (by decide +kernel),
  .block ⟨"void g() \x7b".toList, 17⟩ (by decide +kernel) [] ⟨['}'], 18⟩ (by decide +kernel),
  .block ⟨"struct S \x7b".toList, 19⟩ (by decide +kernel)
    [.simple ⟨"int a;".toList, 20⟩ (by decide +kernel)] ⟨['}', ';'], 21⟩ (by decide +kernel)]

def lambdaJump : Statement := ⟨"return [&](int x) \x7b".toList, 10⟩

def lambdaCloser : Statement := ⟨['}', ';'], 22⟩

theorem jumpBlock_restores_lambda :
    Builder.fresh.Reachable ∧ Builder.fresh.ignored = 0 ∧ Kind.ofText lambdaJump.text = .jump ∧
    braceBalance lambdaJump.text = 1 ∧ IsCloser lambdaCloser.text ∧
    Builder.fresh.Restores (Builder.fresh.feedAll
      (lambdaJump :: (clauseStatements lambdaBody ++ [lambdaCloser]))) := by
  have hb : Builder.fresh.Reachable := ⟨[], rfl⟩
  have hk : Kind.ofText lambdaJump.text = .jump := by decide +kernel
  have ho : braceBalance lambdaJump.text = 1 := by decide +kernel
  have hc : IsCloser lambdaCloser.text := by decide
  exact ⟨hb, rfl, hk, ho, hc, (Builder.jumpBlock_restores_iff hb rfl hk ho lambdaBody hc).2.2 rfl⟩

/-- in a function the closing brace of the lambda leaves the scope of the function -/
theorem lambda_leaves_function :
    openFunction.Reachable ∧ openFunction.ignored = 0 ∧
    Kind.ofText lambdaJump.text = .jump ∧ braceBalance lambdaJump.text = 1 ∧
    lambdaJump.text.getLast? = some '{' ∧ lambdaCloser.text = ['}', ';'] ∧
    openFunction.scopeKinds = [none, some .plain] ∧
    (openFunction.feedAll (lambdaJump :: (clauseStatements [] ++ [lambdaCloser]))).scopeKinds
      = [none] ∧
    ¬ openFunction.Restores
      (openFunction.feedAll (lambdaJump :: (clauseStatements [] ++ [lambdaCloser]))) := by
  have hbefore : openFunction.scopeKinds = [none, some .plain] := by decide +kernel
  have hafter : (openFunction.feedAll
      (lambdaJump :: (clauseStatements [] ++ [lambdaCloser]))).scopeKinds = [none] := by
    decide +kernel
  refine ⟨⟨_, rfl⟩, by decide +kernel, by decide +kernel, by decide +kernel, by decide, rfl,
    hbefore, hafter, ?_⟩
  intro h
  have hkinds := h.scopeKinds
  rw [hbefore, hafter] at hkinds
  cases hkinds

end CodeChart
