import Mathlib.Control.Monad.Basic
import SenderPolicy.Proofs.Action
import SenderPolicy.Expansion

/-! What an expansion does once its string has been scanned.  The text of a string that is scanned
is that of its pieces, and joining literal text changes nothing about it.  A string that is rejected
has no other effect than an entry in the log. -/

namespace SenderPolicy.Expander

open SenderPolicy.Action

variable {x : Expander} {session : Session} {letters : List Character} {value : Text}

/-! ### Letters -/

/-- A letter that does not stand for the validated name changes nothing. -/
theorem exec_resolve_of_ne {letter : Letter} {e : Environment} (h : letter ≠ .validatedName)
    (s : State) :
    exec (x.resolve session letter) e s = ((x.resolve session letter).answer e, s) := by
  cases letter with
  | validatedName => exact absurd rfl h
  | clientAddress =>
    unfold resolve answer
    cases session.client.dotted <;> rfl
  | heloDomain =>
    unfold resolve answer
    cases session.heloDomain <;> rfl
  | receivingHost =>
    unfold resolve answer
    rcases session.receivingHost with _ | _ | ⟨c, host⟩
    · cases x.tuning.receivingHostName <;> rfl
    · cases x.tuning.receivingHostName <;> rfl
    · rfl
  | timestamp =>
    unfold resolve answer
    cases Text.ofInt? session.timestamp <;> rfl
  | _ => rfl

/-- The failure that a letter ends in where the search for the validated name ends in `failure`. -/
def raised : Failure → Failure
  | .resolution error => .expansion { cause := .unresolved error }
  | failure => failure

theorem exec_resolve_validatedName {e : Environment} (s : State) :
    exec (x.resolve session .validatedName) e s =
      ((exec (ValidatedName.preferred x.tuning x.cache session.client session.currentDomain) e
          s).1.mapError raised,
        (exec (ValidatedName.preferred x.tuning x.cache session.client session.currentDomain) e
          s).2) := by
  rw [resolve, exec_tryCatch]
  rcases exec (ValidatedName.preferred _ _ _ _) e s with ⟨failure | text, after⟩
  · cases failure <;> rfl
  · rfl

/-! ### Pieces -/

/-- The text of some pieces. -/
def expandPieces (x : Expander) (session : Session) (pieces : List Piece) : Action Text := do
  return (← pieces.mapM (x.expandPiece session)).flatten

theorem expandPieces_nil : x.expandPieces session [] = pure [] := rfl

theorem expandPieces_cons (piece : Piece) (pieces : List Piece) :
    x.expandPieces session (piece :: pieces) = do
      let text ← x.expandPiece session piece
      let later ← x.expandPieces session pieces
      return text ++ later := by
  simp only [expandPieces, List.mapM_cons, bind_assoc, pure_bind, List.flatten_cons]

theorem expandPieces_literal (text : Text) (pieces : List Piece) :
    x.expandPieces session (.literal text :: pieces) = do
      let later ← x.expandPieces session pieces
      return text ++ later := by
  rw [expandPieces_cons, expandPiece, pure_bind]

/-- A literal stands before what the rest expands to. -/
theorem exec_expandPieces_literal {pieces : List Piece} {later : Text} {e : Environment}
    {s last : State} (text : Text)
    (hrest : exec (x.expandPieces session pieces) e s = (.ok later, last)) :
    exec (x.expandPieces session (.literal text :: pieces)) e s = (.ok (text ++ later), last) := by
  rw [expandPieces_literal, exec_bind, hrest]
  rfl

/-- How a macro ends whose letter ends so: a value is transformed. -/
def transformed (token : Token) (result : Except Failure Text) : Except Failure Text :=
  result.bind fun value => (token.transform? value).mapError .transformation

theorem exists_of_transformed {token : Token} {result : Except Failure Text} {text : Text}
    (h : transformed token result = .ok text) :
    ∃ value, result = .ok value ∧ token.transform? value = .ok text := by
  cases result with
  | error failure => cases h
  | ok value =>
    refine ⟨value, rfl, ?_⟩
    rw [transformed, Except.bind] at h
    cases htransform : token.transform? value with
    | error fault =>
      rw [htransform] at h
      cases h
    | ok other =>
      rw [htransform] at h
      exact congrArg Except.ok (Except.ok.inj h)

/-- A macro does what its letter does. -/
theorem exec_expandPiece_token (token : Token) (e : Environment) (s : State) :
    exec (x.expandPiece session (.token token)) e s =
      (transformed token (exec (x.resolve session token.letter) e s).1,
        (exec (x.resolve session token.letter) e s).2) := by
  rw [expandPiece, exec_bind]
  rcases exec (x.resolve session token.letter) e s with ⟨failure | value, after⟩
  · rfl
  · simp only [transformed, Except.bind]
    cases token.transform? value <;> rfl

/-- A macro stands for the transformed value of its letter, before what the rest expands to. -/
theorem exec_expandPieces_token {pieces : List Piece} {value text later : Text} {e : Environment}
    {s after last : State} (token : Token) (htransform : token.transform? value = .ok text)
    (hresolve : exec (x.resolve session token.letter) e s = (.ok value, after))
    (hrest : exec (x.expandPieces session pieces) e after = (.ok later, last)) :
    exec (x.expandPieces session (.token token :: pieces)) e s = (.ok (text ++ later), last) := by
  rw [expandPieces_cons, exec_bind, exec_expandPiece_token, hresolve]
  simp only [transformed, Except.bind, htransform, Except.mapError, exec_bind, hrest, exec_pure]

/-- What literal text before other pieces expands to. -/
theorem exists_of_expandPieces_literal {pieces : List Piece} {first text : Text} {e : Environment}
    {s last : State}
    (h : exec (x.expandPieces session (.literal first :: pieces)) e s = (.ok text, last)) :
    ∃ later, exec (x.expandPieces session pieces) e s = (.ok later, last) ∧
      text = first ++ later := by
  rw [expandPieces_literal, exec_bind_eq_ok] at h
  obtain ⟨later, after, hrest, htext⟩ := h
  rw [exec_pure, Prod.mk.injEq, Except.ok.injEq] at htext
  obtain ⟨rfl, rfl⟩ := htext
  exact ⟨later, hrest, rfl⟩

/-- What a macro before other pieces expands to. -/
theorem exists_of_expandPieces_token {pieces : List Piece} {token : Token} {text : Text}
    {e : Environment} {s last : State}
    (h : exec (x.expandPieces session (.token token :: pieces)) e s = (.ok text, last)) :
    ∃ value after first later,
      exec (x.resolve session token.letter) e s = (.ok value, after) ∧
      token.transform? value = .ok first ∧
      exec (x.expandPieces session pieces) e after = (.ok later, last) ∧
      text = first ++ later := by
  rw [expandPieces_cons, exec_bind_eq_ok] at h
  obtain ⟨first, after, hpiece, hrest⟩ := h
  rw [exec_expandPiece_token, Prod.mk.injEq] at hpiece
  obtain ⟨hfirst, rfl⟩ := hpiece
  obtain ⟨value, hresolve, htransform⟩ := exists_of_transformed hfirst
  obtain ⟨later, middle, hlater, htext⟩ := exec_bind_eq_ok.1 hrest
  rw [exec_pure, Prod.mk.injEq, Except.ok.injEq] at htext
  obtain ⟨rfl, rfl⟩ := htext
  exact ⟨value, _, first, later, Prod.ext hresolve rfl, htransform, hlater, rfl⟩

theorem expandPieces_append (pieces others : List Piece) :
    x.expandPieces session (pieces ++ others) = do
      let text ← x.expandPieces session pieces
      let later ← x.expandPieces session others
      return text ++ later := by
  induction pieces with
  | nil => simp [expandPieces_nil]
  | cons piece pieces ih =>
    rw [List.cons_append, expandPieces_cons, expandPieces_cons, ih]
    simp only [bind_assoc, pure_bind, List.append_assoc]

theorem expandPieces_addPiece (piece : Piece) (pieces : List Piece) :
    x.expandPieces session (MacroString.addPiece piece pieces) =
      x.expandPieces session (piece :: pieces) := by
  unfold MacroString.addPiece
  split
  · simp only [expandPieces_literal, bind_assoc, pure_bind, List.append_assoc]
  · rfl

/-- Literal text expands to itself, whether it is joined or not. -/
theorem expandPieces_fuse (pieces : List Piece) :
    x.expandPieces session (MacroString.fuse pieces) = x.expandPieces session pieces := by
  induction pieces with
  | nil => rfl
  | cons piece pieces ih =>
    rw [MacroString.fuse, List.foldr_cons, ← MacroString.fuse, expandPieces_addPiece,
      expandPieces_cons, expandPieces_cons, ih]

theorem expand_of_scan {pieces : List Piece} (h : MacroString.scan letters value = .ok pieces) :
    x.expand session value letters = x.expandPieces session pieces := by
  unfold expand
  rw [h]
  rfl

/-- What is logged of a string that is rejected. -/
def rejection (failure : Failure) : List LogEntry :=
  if failure.kind.isExpansion then
    [⟨.expander, .debug, "Rejected macro string: " ++ failure.message⟩]
  else []

theorem exec_expand_of_fault {fault : ScanFault} (h : MacroString.scan letters value = .error fault)
    (x : Expander) (session : Session) (e : Environment) (s : State) :
    exec (x.expand session value letters) e s =
      (.error (.ofScan value fault),
        { s with trace := s.trace ++ (rejection (.ofScan value fault)).map .log }) := by
  unfold expand
  rw [h]
  by_cases hkind : (Failure.ofScan value fault).kind.isExpansion = true
  · simp only [hkind, if_true, exec_bind, exec_log, exec_throw, rejection, List.map_cons,
      List.map_nil]
  · simp [hkind, rejection]

end SenderPolicy.Expander
