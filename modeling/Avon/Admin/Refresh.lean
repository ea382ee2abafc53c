import Avon.Common
import Avon.Lib.Run

/-!
# The rotation of refresh tokens

`refresh_token`, `logout` and the part of `login` that stores a token. Requests run side by side,
and each statement is a step that may raise. A request presents a token that was issued. `log` is
not in the code: it lists what happened, the latest first.
-/

set_option autoImplicit false

namespace Avon.Admin

abbrev UserId := Uuid

abbrev Jti := Uuid

structure Token where
  jti : Jti
  userId : UserId
  deriving DecidableEq, Repr

structure RefreshRow where
  jti : Jti
  userId : UserId
  expiresAt : ℤ
  revokedAt : Option ℤ
  replacedBy : Option Jti
  deriving DecidableEq, Repr

inductive Statement where
  | selectToken
  | revokeFamily (userId : UserId)
  | getUser (newJti : Jti)
  | rotate (newJti : Jti)
  | insertToken (newJti : Jti)
  deriving DecidableEq, Repr

inductive Outcome where
  | next (statement : Statement)
  | refuse (detail : String)
  | reuse (userId : UserId)
  | respond (newJti : Jti)
  | raise
  deriving DecidableEq, Repr

/-- What the code gets from outside while it runs a statement: the time, `uuid4` and the row of the
user, `none` if there is none. -/
structure Inputs where
  now : ℤ
  newJti : Jti
  isActive : Option Bool
  deriving DecidableEq, Repr

/-- How long a refresh token is valid, from the setting `refresh_token_days`, 7 by default. -/
def refreshTokenSeconds (refreshTokenDays : ℤ) : ℤ := refreshTokenDays * 24 * 3600

/-- One statement of `refresh_token`, and the code up to the next one. -/
def execute (refreshTokenDays : ℤ) (rows : List RefreshRow) (token : Token) (i : Inputs) :
    Statement → List RefreshRow × Outcome
  | .selectToken =>
    match rows.find? fun row => row.jti = token.jti with
    | none => (rows, .refuse "Invalid refresh token")
    | some row =>
      if row.revokedAt.isSome then (rows, .next (.revokeFamily row.userId))
      else if row.expiresAt < i.now then (rows, .refuse "Refresh token expired")
      else (rows, .next (.getUser i.newJti))
  | .revokeFamily userId =>
    (rows.map fun row =>
      if row.userId = userId ∧ row.revokedAt = none then { row with revokedAt := some i.now }
      else row, .reuse userId)
  | .getUser newJti =>
    if i.isActive = some true then (rows, .next (.rotate newJti))
    else (rows, .refuse "User not found or disabled")
  | .rotate newJti =>
    (rows.map fun row =>
      if row.jti = token.jti then { row with revokedAt := some i.now, replacedBy := some newJti }
      else row, .next (.insertToken newJti))
  | .insertToken newJti =>
    if rows.any fun row => row.jti = newJti then (rows, .raise)
    else
      (⟨newJti, token.userId, i.now + refreshTokenSeconds refreshTokenDays, none, none⟩ :: rows,
        .respond newJti)

inductive Entry where
  | issued (jti : Jti) (userId : UserId)
  | detected (userId : UserId)
  | accepted (jti : Jti)
  | refused (jti : Jti) (detail : String)
  deriving DecidableEq, Repr

structure RefreshRequest where
  token : Token
  statement : Statement
  deriving DecidableEq, Repr

def Statement.drawn : Statement → Option Jti
  | .getUser newJti | .rotate newJti | .insertToken newJti => some newJti
  | _ => none

structure Refreshes where
  rows : List RefreshRow
  requests : List RefreshRequest
  log : List Entry

inductive RefreshEvent where
  /-- `login` issues a token. `stored` is whether its `INSERT` succeeds; an error there is only
  logged. -/
  | login (token : Token) (now : ℤ) (stored : Bool)
  /-- A token is presented. `decoded` is whether its signature and its expiry are all right. -/
  | request (token : Token) (decoded : Bool)
  | statement (position : ℕ) (inputs : Inputs) (raises : Bool)
  | logout (jti : Jti) (now : ℤ)

namespace Refreshes

def start : Refreshes := ⟨[], [], []⟩

/-- What a finished statement does to the request. An exception other than `HTTPException` is
answered with a new access token and the refresh token that was presented. -/
def proceed (s : Refreshes) (n : ℕ) (token : Token) : Outcome → Refreshes
  | .next statement => { s with requests := s.requests.set n ⟨token, statement⟩ }
  | .refuse detail =>
    { s with requests := s.requests.eraseIdx n, log := .refused token.jti detail :: s.log }
  | .reuse userId =>
    { s with
      requests := s.requests.eraseIdx n
      log := .refused token.jti "Refresh token reuse detected" :: .detected userId :: s.log }
  | .respond newJti =>
    { s with
      requests := s.requests.eraseIdx n
      log := .issued newJti token.userId :: .accepted token.jti :: s.log }
  | .raise =>
    { s with requests := s.requests.eraseIdx n, log := .accepted token.jti :: s.log }

def step (refreshTokenDays : ℤ) (s : Refreshes) : RefreshEvent → Refreshes
  | .login token now stored =>
    let rows := if stored ∧ ¬ (s.rows.any fun row => row.jti = token.jti) then
      ⟨token.jti, token.userId, now + refreshTokenSeconds refreshTokenDays, none, none⟩ :: s.rows
      else s.rows
    { s with rows, log := .issued token.jti token.userId :: s.log }
  | .request token decoded =>
    if decoded ∧ .issued token.jti token.userId ∈ s.log then
      { s with requests := ⟨token, .selectToken⟩ :: s.requests }
    else s
  | .statement n inputs raises =>
    match s.requests[n]? with
    | none => s
    | some ⟨token, statement⟩ =>
      if raises then s.proceed n token .raise
      else
        let (rows, outcome) := execute refreshTokenDays s.rows token inputs statement
        { s with rows }.proceed n token outcome
  | .logout jti now =>
    { s with rows := s.rows.map fun row =>
        if row.jti = jti then { row with revokedAt := some now } else row }

/-- A token is exchanged once at most, and after a detected reuse no token is exchanged that the
user was given before it. The log is read from the latest entry on. -/
def RotationSafe (log : List Entry) : Prop :=
  (∀ jti, ¬ List.Sublist [.accepted jti, .accepted jti] log) ∧
  ∀ jti userId, ¬ List.Sublist [.accepted jti, .detected userId, .issued jti userId] log

/-- The ids of tokens so far: issued, or drawn for a token that is not yet issued. -/
def used (s : Refreshes) : List Jti :=
  (s.log.filterMap fun
    | .issued jti _ => some jti
    | _ => none) ++ s.requests.filterMap (·.statement.drawn)

/-- Requests of one user do not overlap, no statement raises, and the ids that are drawn are new. -/
def orderly (s : Refreshes) : RefreshEvent → Bool
  | .login token _ _ => token.jti ∉ s.used
  | .request token _ => s.requests.all fun r => r.token.userId ≠ token.userId
  | .statement _ inputs raises => !raises && inputs.newJti ∉ s.used
  | .logout _ _ => true

end Refreshes

end Avon.Admin
