-- The laws of addresses: whose account an address links to. The database knows no two rows with
-- one subject, but it lets two rows have one address, and a sync stores the address of any
-- token, verified or not.
import Xrelease.Accounts

namespace xrelease.linking

open text keyed xrelease.config xrelease.users xrelease.auth xrelease.model
open calls calls.Prog

/-! ## What an address promises -/

/-- Nobody has the address but the row in question. -/
def Free (lower : String → String) (d : Directory) (but : Option Nat) (email : Option String) :
    Prop :=
  ∀ e j row, email = some e → d.get j = some row → row.email.map lower = some (lower e) →
    but = some j

/-- A statement writes no address that another account has, and one of an unverified sync writes a
local account no address but its own. -/
def BringsAFreeAddress (server : Server) {β : Type} (op : UserCall β) (d : Directory) : Prop :=
  match op with
  | .insert_user user => Free server.lower d none user.email
  | .insert_oidc_user user => Free server.lower d none user.email
  | .update_oidc_link_email user_id email => ∀ row, d.get user_id = some row →
      row.auth_source = "local" → Free server.lower d (some user_id) email
  | .update_oidc_user id user => ∀ row, d.get id = some row →
      Free server.lower d (some id) user.email ∧
        (user.link_by_email = false → row.auth_source = "local" →
          ∀ e, user.email = some e → row.email = some e)
  | .adopt_local_user id user => ∀ row, d.get id = some row →
      Free server.lower d (some id) user.val.email
  | _ => True

/-- The runs in question: every write brings a free address. -/
def Orderly (server : Server) : Server.Users → Move Answer Empty → Prop :=
  onCalls (fun _ op _ w => BringsAFreeAddress server op w.directory)

namespace bench

def server : Server where
  api := { local_auth := { session_secret := some "secret" } }
  oidc := none
  jwt :=
    { decode_header := fun _ => .error "InvalidToken"
      encode := fun _ _ => .error "InvalidKeyFormat"
      decode_session := fun _ _ _ _ => .error "InvalidToken"
      from_jwk := fun _ => .error "InvalidKeyFormat"
      decode := fun _ _ _ _ => .error "InvalidToken" }
  lower := lower
  verify_password := fun _ _ => false
  decoy_password_hash := "decoy"

def account (username email : String) : Server.Request :=
  .create_user ⟨username, "a password", .Viewer, some email, none⟩

/-- An admin creates two accounts, the second with the address of the first in capitals, and points
the first to another address. -/
def start : Server.Users where
  state := ⟨Directory.empty, []⟩
  worker := fun w =>
    if w = 0 then server.program (account "ann" "ann@example.org")
    else if w = 1 then server.program (account "eve" "ANN@example.org")
    else if w = 2 then server.program (.link_user_oidc 1 ⟨some "ann@example.com", none⟩)
    else done ()

theorem start_starts : server.Starts start := by
  intro w
  unfold start
  dsimp only
  split
  · exact Or.inr ⟨_, rfl⟩
  · split
    · exact Or.inr ⟨_, rfl⟩
    · split
      · exact Or.inr ⟨_, rfl⟩
      · exact Or.inl rfl

/-- The address is looked up, the row rewritten. -/
def links : List (Move Answer Empty) := [.work 2 {}, .work 2 {}]

end bench

end xrelease.linking
