import Mustache.Proofs.Template.Window

/-! The loops of reading in place, turn by turn. A turn of either loop reads one tag: it
leaves the loop, or the loop goes on at another offset. Compiling also goes into the body of
a section, and goes on behind the section. Main results: the loops are their turns, one after
the other, and each turn that does not leave its loop moves the cursor on, inside the window. -/

namespace Mustache.Template

/-- What a turn in search of the end of a section leads to: the close tag, or the next turn. -/
inductive SearchTurn
  | found (close behind : Nat)
  | goOn (pending cursor : Nat)

/-- What a turn of compiling leads to: the nodes, the next turn, or into the body of a
section and from there to the next turn. -/
inductive BuildTurn
  | done (nodes : List Node)
  | goOn (nodes : List Node) (cursor : Nat)
  | enter (nodes : List Node) (sense : Sense) (name : String) (body close behind : Nat)

/-- The turn at offset `i` finds a close tag in front of the end, or moves on, not behind it. -/
def SearchTurn.Inside (i stop : Nat) : SearchTurn → Prop
  | .found close behind => i ≤ close ∧ close < behind ∧ behind ≤ stop
  | .goOn _ cursor => i < cursor ∧ cursor ≤ stop

/-- The turn at offset `i` moves on, not behind the end, or goes into a section with a body
in between; for that there has to be room. -/
def BuildTurn.Inside (limit depth i stop : Nat) : BuildTurn → Prop
  | .done _ => True
  | .goOn _ cursor => i < cursor ∧ cursor ≤ stop
  | .enter _ _ _ body close behind =>
    depth < limit ∧ i < body ∧ body ≤ close ∧ close < behind ∧ behind ≤ stop

namespace Window

/-- The text stands at offset `i` and does not go on behind the end. -/
def holds (w : Window) : List Char → Nat → Bool
  | [], _ => true
  | c :: text, i => w.char? i = some c && w.holds text (i + 1)

/-- A turn in search of the end of a section called `name`. -/
def searchTurn (w : Window) (name : String) (pending i : Nat) : Except SyntaxError SearchTurn :=
  match w.nextOpening i with
  | .error e => .error e
  | .ok none => .error ⟨.expectedEnd name, w.stop⟩
  | .ok (some m) =>
    match w.finish m with
    | .error e => .error e
    | .ok (label, behind) =>
      match pendingAfter name pending m.sigil label with
      | none => .ok (.found m.offset behind)
      | some pending => .ok (.goOn pending behind)

/-- A turn of compiling behind the nodes `nodes`, the last of which comes first. -/
def buildTurn (w : Window) (limit depth : Nat) (nodes : List Node) (i : Nat) :
    Except SyntaxError BuildTurn :=
  match w.nextOpening i with
  | .error e => .error e
  | .ok none => .ok (.done (Node.consText (w.slice i w.stop) nodes).reverse)
  | .ok (some m) =>
    let nodes := Node.consText (w.slice i m.offset) nodes
    match m.sigil with
    | .close => .error ⟨.strayEnd, m.offset⟩
    | .block sense =>
      if limit ≤ depth then .error ⟨.nestingTooDeep limit, m.offset⟩ else
      match w.finish m with
      | .error e => .error e
      | .ok (name, behind) =>
        match w.sectionEnd name 0 (w.skipLineEnd behind) with
        | .error e => .error e
        | .ok (close, rest) => .ok (.enter nodes sense name (w.skipLineEnd behind) close rest)
    | sigil =>
      match w.finish m with
      | .error e => .error e
      | .ok (label, behind) =>
        .ok (.goOn (((sigil.alone? label).getD []).reverse ++ nodes) (w.behindTag sigil behind))

variable {w : Window} {name : String} {pending limit depth i : Nat} {nodes : List Node}

/-! ### The loops -/

theorem sectionEnd_eq_turn (w : Window) (name : String) (pending i : Nat) :
    w.sectionEnd name pending i =
      match w.searchTurn name pending i with
      | .error e => .error e
      | .ok (.found close behind) => .ok (close, behind)
      | .ok (.goOn pending j) => w.sectionEnd name pending j := by
  rw [sectionEnd, searchTurn]
  split
  · rename_i hm
    rw [hm]
  · rename_i hm
    rw [hm]
  · rename_i m hm
    simp only [hm]
    split
    · rename_i hf
      rw [hf]
    · rename_i label behind hf
      simp only [hf]
      cases pendingAfter name pending m.sigil label <;> rfl

theorem buildOnto_eq_turn (limit depth : Nat) (nodes : List Node) (w : Window) (i : Nat) :
    buildOnto limit depth nodes w i =
      match w.buildTurn limit depth nodes i with
      | .error e => .error e
      | .ok (.done nodes) => .ok nodes
      | .ok (.goOn nodes j) => buildOnto limit depth nodes w j
      | .ok (.enter nodes sense name body close behind) =>
        match buildOnto limit (depth + 1) [] (w.upTo close) body with
        | .error e => .error e
        | .ok children =>
          let text := String.ofList (w.slice body close)
          buildOnto limit depth (.block sense name text children :: nodes) w
            (w.skipLineEnd behind) := by
  rw [buildOnto, buildTurn]
  split
  · rename_i hm
    rw [hm]
  · rename_i hm
    rw [hm]
  · rename_i m hm
    simp only [hm]
    cases hsigil : m.sigil with
    | close => rfl
    | block sense =>
      simp only
      split
      · rfl
      · cases hf : w.finish m with
        | error e =>
          have hs : w.enclosed m = .error e := by simp only [enclosed, hf]
          split <;> rename_i hs' <;> cases hs.symm.trans hs'
          rfl
        | ok read =>
          obtain ⟨name, behind⟩ := read
          cases hend : w.sectionEnd name 0 (w.skipLineEnd behind) with
          | error e =>
            have hs : w.enclosed m = .error e := by simp only [enclosed, hf, hend]
            split <;> rename_i hs' <;> cases hs.symm.trans hs'
            simp only [hend]
          | ok ends =>
            obtain ⟨close, rest⟩ := ends
            have hs : w.enclosed m =
                .ok ⟨name, w.skipLineEnd behind, close, w.skipLineEnd rest⟩ := by
              simp only [enclosed, hf, hend]
            split <;> rename_i hs' <;> cases hs.symm.trans hs'
            cases hbody : buildOnto limit (depth + 1) [] (w.upTo close) (w.skipLineEnd behind) <;>
              simp only [hend, hbody]
    | field | inclusion | comment =>
      simp only
      split
      · rename_i hf
        rw [hf]
      · rename_i hf
        simp only [hf]

/-! ### Where a turn leads -/

theorem searchTurn_inside {turn : SearchTurn} (h : w.searchTurn name pending i = .ok turn) :
    turn.Inside i w.stop := by
  unfold searchTurn at h
  split at h
  · cases h
  · cases h
  · rename_i m hm
    split at h
    · cases h
    · rename_i label behind hf
      have hbounds := tag_bounds hm hf
      split at h
      · cases h
        exact hbounds
      · cases h
        exact ⟨hbounds.1.trans_lt hbounds.2.1, hbounds.2.2⟩

theorem buildTurn_inside {turn : BuildTurn} (h : w.buildTurn limit depth nodes i = .ok turn) :
    turn.Inside limit depth i w.stop := by
  unfold buildTurn at h
  split at h
  · cases h
  · cases h
    trivial
  · rename_i m hm
    cases hsigil : m.sigil with
    | close =>
      simp only [hsigil] at h
      cases h
    | block sense =>
      simp only [hsigil] at h
      split at h
      · cases h
      · rename_i hroom
        split at h
        · cases h
        · rename_i name behind hf
          have htag := tag_bounds hm hf
          have hbody := skipLineEnd_bounds htag.2.2
          split at h
          · cases h
          · rename_i close rest hend
            have hclose := sectionEnd_bounds hend
            cases h
            simp only [BuildTurn.Inside]
            omega
    | field | inclusion | comment =>
      simp only [hsigil] at h
      split at h
      · cases h
      · rename_i label behind hf
        have htag := tag_bounds hm hf
        have hcursor := behindTag_bounds htag.2.2 m.sigil
        rw [hsigil] at hcursor
        cases h
        simp only [BuildTurn.Inside]
        omega

end Window

end Mustache.Template
