import Mustache.Proofs.Run
import Mustache.Proofs.Template.Limit

/-! Lambdas that return their argument. The body that a section keeps for a lambda compiles
to the children of the section again, so a lambda that returns it is shown as a true value
is. Main result: the two walks are the same but for the call of the lambda, unless the
children nest deeper than the levels left to the expansion, which is then refused. -/

namespace Mustache

open Template

/-! ### Earlier calls -/

/-- Earlier calls have no influence on what a computation does and on the calls it adds. -/
def Run.IgnoresCalls {α : Type} (r : Run α) : Prop :=
  ∀ s : Session, ∃ added, ∀ calls,
    r { s with calls := calls } = ((r s).1, { (r s).2 with calls := calls ++ added })

namespace Run.IgnoresCalls

/-- What leaves the calls alone and does not look at them. -/
theorem of_frame {α : Type} {r : Run α}
    (h : ∀ s calls, r { s with calls := calls } = ((r s).1, { (r s).2 with calls := calls })) :
    IgnoresCalls r := by
  intro s
  refine ⟨#[], fun calls => ?_⟩
  rw [h, Array.append_empty]

theorem congruence : Run.Congruence (fun _ => True) fun _ r _ => IgnoresCalls r where
  pure _ := of_frame fun _ _ => rfl
  reject _ := of_frame fun _ _ => rfl
  throw _ := of_frame fun _ _ => rfl
  log _ := of_frame fun _ _ => rfl
  write text := by
    refine of_frame fun s calls => ?_
    rw [Run.write_apply, Run.write_apply]
    cases s.sink.failure? <;> split <;> rfl
  calling {α c} hc _ s := by
    obtain ⟨result, added, hc⟩ := hc
    refine ⟨added, fun calls => ?_⟩
    rw [Run.calling_apply, Run.calling_apply, hc, hc]
  bind {α β r r' f f'} hr hf s := by
    obtain ⟨added, hr⟩ := hr s
    cases hout : r s with
    | mk result s' =>
      cases result with
      | error failure =>
        refine ⟨added, fun calls => ?_⟩
        rw [Run.bind_apply, Run.bind_apply, hr, hout]
      | ok a =>
        obtain ⟨added', hf⟩ := hf a s'
        refine ⟨added ++ added', fun calls => ?_⟩
        rw [Run.bind_apply, Run.bind_apply, hr, hout, ← Array.append_assoc]
        exact hf (calls ++ added)
  reporting {α r r'} identifier hr s := by
    obtain ⟨added, hr⟩ := hr s
    refine ⟨added, fun calls => ?_⟩
    unfold Setup.reporting
    rw [hr]
    rcases r s with ⟨(e | f | fault | fault) | a, s'⟩ <;> rfl

theorem fetch (setup : Setup) (identifier : String) : IgnoresCalls (setup.fetch identifier) := by
  refine of_frame fun s calls => ?_
  rw [setup.fetch_frame identifier s s.sink calls]
  simp only [Setup.fetch_sink]

end Run.IgnoresCalls

/-! ### Expansions -/

/-- A lambda that returns its argument. -/
def Lambda.echo : Lambda := ⟨"echo", .ok⟩

namespace Setup

/-- The call of a lambda comes first in an expansion, and compiling what it returns next. -/
theorem expand_apply {f : Lambda} {body text : String} (hf : f.call body = .ok text)
    (below : Nat) (s : Session) : expand below f body s =
      ((parse (max below 1) text.toList).mapError fun e =>
          .template (TemplateError.ofSyntaxIn text.toList e),
        { s with calls := s.calls.push body }) := by
  rw [expand, Run.bind_apply, Run.calling_apply, Lambda.apply, hf]
  cases hparse : parse (max below 1) text.toList <;> simp only [hparse] <;> rfl

/-- A lambda that returns the body of a section which occurs, at any depth, in compiled
nodes is shown as a true value is: the same is written, requested and cached, and the walk
ends in the same way, with the same calls behind the one of the lambda. If the children nest
deeper than the levels left to the expansion, it is refused before anything is written. -/
theorem showBody_lambda {maxDepth : Nat} {source : List Char} {nodes children : List Node}
    {sense : Sense} {name body : String} (hparse : parse maxDepth source = .ok nodes)
    (hblock : Occurs (.block sense name body children) nodes) {f : Lambda}
    (hf : f.call body = .ok body) (setup : Setup) (limit depth : Nat) (c : Contexts)
    (s : Session) :
    let shown := setup.showBody limit (limit - depth) c body children (.ofValue c (.bool true)) s
    let expanded := setup.showBody limit (limit - depth) c body children (.ofValue c (.lambda f)) s
    (heightOf children ≤ max (limit - depth) 1 →
      ∃ added, shown.2.calls = s.calls ++ added ∧
        expanded = (shown.1, { shown.2 with calls := s.calls.push body ++ added })) ∧
    (max (limit - depth) 1 < heightOf children →
      ∃ e : TemplateError, e.kind = .nestingTooDeep ∧
        expanded = (.error (.template e), { s with calls := s.calls.push body })) := by
  intro shown expanded
  have hbody := parse_body_of_occurs hparse hblock
  have hexpanded : expanded =
      (do setup.renderNodes limit (limit - depth) c (← expand (limit - depth) f body)) s := rfl
  rw [Run.bind_apply, expand_apply hf] at hexpanded
  constructor
  · intro hle
    have hshown : shown = setup.renderNodes limit (limit - depth) c children s :=
      congrFun (bind_pure (setup.renderNodes limit (limit - depth) c children)) s
    obtain ⟨added, hadded⟩ := Run.IgnoresCalls.congruence.renderNodes_self
      (Run.IgnoresCalls.fetch setup) limit (limit - depth) (c := c) (fun _ _ => trivial)
      children s
    rw [← hshown] at hadded
    have hcalls : shown.2.calls = s.calls ++ added := by
      rw [hshown]
      exact congrArg (fun run => run.2.calls) (hadded s.calls)
    rw [parse_of_heightOf_le hbody hle] at hexpanded
    exact ⟨added, hcalls, hexpanded.trans (hadded (s.calls.push body))⟩
  · intro hlt
    obtain ⟨offset, hrefused⟩ := parse_of_lt_heightOf hbody hlt
    rw [hrefused] at hexpanded
    exact ⟨_, rfl, hexpanded⟩

theorem showBody_lambda_echo :
    parse 1 "\x7b\x7b#s\x7d\x7dx\x7b\x7b/s\x7d\x7d".toList =
      .ok [.block .normal "s" "x" [.text "x"]] ∧
    Occurs (.block .normal "s" "x" [.text "x"]) [.block .normal "s" "x" [.text "x"]] ∧
    Lambda.echo.call "x" = .ok "x" ∧
    showBody ⟨.memory [] 0, "u8", 1⟩ 1 (1 - 1) ⟨.record [], none⟩ "x" [.text "x"]
        (.ofValue ⟨.record [], none⟩ (.lambda .echo)) (.start ⟨[]⟩ .unlimited) =
      (.ok (), { Session.start ⟨[]⟩ ⟨#["x"], none⟩ with calls := #["x"] }) := by
  have hparse : parse 1 "\x7b\x7b#s\x7d\x7dx\x7b\x7b/s\x7d\x7d".toList =
      .ok [.block .normal "s" "x" [.text "x"]] := by
    refine parse_eq_ok_iff_forms.2 ⟨[.tag (.block .normal) ['s'] [], .text ['x'],
      .tag .close ['s'] []], ?_, rfl, ?_⟩
    · simp [WellCut, Piece.Before, Piece.written, Sigil.Admits, Sigil.takesLineEnd,
        leadingLineEnd]
    · have hbody : Forms 0 [.text ['x']] ([.text "x"] ++ []) := .alone rfl .nil
      exact .block rfl hbody .nil
  have hshown : showBody ⟨.memory [] 0, "u8", 1⟩ 1 (1 - 1) ⟨.record [], none⟩ "x" [.text "x"]
      (.ofValue ⟨.record [], none⟩ (.bool true)) (.start ⟨[]⟩ .unlimited) =
        (.ok (), Session.start ⟨[]⟩ ⟨#["x"], none⟩) := by cbv
  have hblock : Occurs (.block .normal "s" "x" [.text "x"])
      [.block .normal "s" "x" [.text "x"]] := .here (List.mem_singleton.2 rfl)
  obtain ⟨added, hcalls, hexpanded⟩ := (showBody_lambda hparse hblock
    (rfl : Lambda.echo.call "x" = .ok "x") ⟨.memory [] 0, "u8", 1⟩ 1 1 ⟨.record [], none⟩
    (.start ⟨[]⟩ .unlimited)).1 (by decide)
  rw [hshown] at hcalls hexpanded
  have hadded : added = #[] := by simpa [Session.start] using hcalls.symm
  subst hadded
  exact ⟨hparse, hblock, rfl, hexpanded⟩

end Setup

end Mustache
