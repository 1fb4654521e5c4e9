import Clavex.Authorize
import Clavex.Device

/-!
# Scopes and registered scopes

What it means that a scope is within those registered, and the system in which scopes are
requested and tokens issued.
-/

namespace Clavex

open Prog List

/-! ## Registered scopes -/

def Within (scope : String) (registered : List String) : Prop := ∀ w ∈ fields scope, w ∈ registered.flatMap fields

instance (scope : String) (registered : List String) : Decidable (Within scope registered) :=
  inferInstanceAs (Decidable (∀ w ∈ fields scope, w ∈ registered.flatMap fields))

/-! ## Runs -/

inductive ScopeRequest where
  | token (r : TokenRequest)
  | device (q : DeviceRequest)
  | backchannel (q : BackchannelRequest)

inductive ScopeReply where
  | tokens (ts : TokenSet)
  | device (r : DeviceReply)
  | backchannel (r : BackchannelReply)

def serveScope (h : AuthorizeHandler) : ScopeRequest → TokenProg ScopeReply
  | .token r => do
    let ts ← token h.toOIDCHandler r
    return .tokens ts
  | .device q => do
    let r ← serveDevice h.toOIDCHandler q
    return .device r
  | .backchannel q => do
    let r ← backchannelAuthorize h q
    return .backchannel r

def TokenOp.adds : TokenOp → Bool
  | insertDevice .. | insertCIBA _ => true
  | _ => false

inductive ScopeEvent where
  | tick (seconds : Nat)
  | settings (orgs : List OrgRow) (users : List User)
  | code (q : AuthorizeInput) (plain : String) (claims : GoMap Json) (userID : Option UUID) (authTime : Int)
  | statement (env : Env) (op : TokenOp)

def TokenStore.client (s : TokenStore) (clientID : String) : Option OIDCClient :=
  s.clients.find? (·.clientID == clientID)

def scopeEvent (h : AuthorizeHandler) : ScopeEvent → TokenStore → TokenStore
  | .tick n, s => { s with now := s.now + n }
  | .settings orgs users, s => { s with orgs := orgs, users := users }
  | .code q plain claims userID authTime, s =>
    match authorize h q (s.client (param q.params "client_id")) "" with
    | .error _ => s
    | .ok sess =>
      match issueAuthorizationCode { sess with authTime := authTime } claims userID s.now false with
      | some ac => s.insertCode ac (h.hashString plain)
      | none => s
  | .statement env op, s => if op.adds then s else (sem h.toOIDCHandler env op s).2

abbrev ScopePool := Pool ScopeRequest TokenOp TokenOp.Resp TokenErr ScopeReply TokenStore

abbrev ScopeRun := List (PoolMove ScopeRequest Env ScopeEvent)

def scopeSystem (h : AuthorizeHandler) :
    System ScopeRequest TokenOp TokenOp.Resp TokenErr ScopeReply TokenStore Env ScopeEvent where
  main := serveScope h
  sem := sem h.toOIDCHandler
  other := scopeEvent h

end Clavex
