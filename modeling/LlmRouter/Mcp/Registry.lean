import LlmRouter.Gateway.Provider
import LlmRouter.Mcp.Stdio

/-!
# LlmRouter — the hub of MCP servers and its administration

`Hub` is a map from names to servers; `AdminMCPHandler` keeps a list of configurations beside it,
which the admin list shows. The hub has no operation that removes a server, so a deleted one is
still resolved, and a name that is registered again is on the list twice. `registry_iff` says that
these are the only ways the two drift apart.
-/

namespace LlmRouter.Mcp.Admin

open Gateway List

/-! ## Servers -/

inductive Transport where
  | stdio
  | sse
  | websocket
  deriving DecidableEq, Repr

structure Server where
  transport : Transport
  cfg : ServerConfig
  closed : Bool := false
  deriving DecidableEq, Repr

def newServer (cfg : ServerConfig) : Server :=
  let transport :=
    if cfg.type = "stdio" then .stdio
    else if cfg.type = "websocket" then .websocket
    else .sse
  { transport, cfg }

def Server.name (s : Server) : String := s.cfg.name

structure Tool where
  name : String
  description : String := ""
  inputSchema : String := ""
  server : String := ""
  deriving DecidableEq, Repr

structure Upstream where
  health : Server → Option String
  listTools : Server → Except String (List Tool)
  callTool : Server → (tool : String) → (args : String) → Except String String

/-! ## The hub -/

/-- `Hub`; the map as a list, in one of the orders in which it may be iterated. -/
structure Hub where
  servers : List (String × Server) := []
  deriving DecidableEq, Repr

def serverNotFound (name : String) : String := "mcp server " ++ goQuote name ++ " not found"

namespace Hub

variable (h : Hub)

def register (s : Server) : Hub :=
  { servers := (s.name, s) :: h.servers.filter fun kv => kv.1 != s.name }

def serverNames : List String := h.servers.map Prod.fst

def server (name : String) : Except String Server :=
  match h.servers.lookup name with
  | some s => .ok s
  | none => .error (serverNotFound name)

def listAllTools (up : Upstream) : List Tool :=
  h.servers.flatMap fun kv =>
    match up.listTools kv.2 with
    | .ok tools => tools.map fun t => { t with server := kv.1 }
    | .error _ => []

def callTool (up : Upstream) (serverName toolName args : String) : Except String String :=
  match h.server serverName with
  | .error err => .error err
  | .ok s => up.callTool s toolName args

def healthAll (up : Upstream) : List (String × String) :=
  h.servers.map fun kv => (kv.1, (up.health kv.2).getD "ok")

def closeServer (name : String) : Hub :=
  { servers := h.servers.map fun kv =>
      if kv.1 = name then (kv.1, { kv.2 with closed := true }) else kv }

end Hub

/-! ## The handler -/

structure AdminMCPHandler where
  hub : Hub
  cfgs : List ServerConfig
  deriving DecidableEq, Repr

structure Reply where
  status : Nat
  message : String
  deriving DecidableEq, Repr

structure ServerInfo where
  name : String
  type : String
  url : String
  status : String
  deriving DecidableEq, Repr

inductive AdminRequest where
  | registerServer (body : String) (connect : Option String)
  | deleteServer (name : String)
  deriving DecidableEq, Repr

/-- The checks of `RegisterServer` before it connects; `decode` is the decoder of the body. -/
def checkConfig (decode : String → Option ServerConfig) (body : String) :
    Except Reply ServerConfig :=
  match decode body with
  | none => .error ⟨400, "invalid request body"⟩
  | some cfg =>
    if cfg.name = "" ∨ cfg.type = "" then .error ⟨400, "name and type are required"⟩
    else if cfg.type = "stdio" ∧ cfg.command = "" then
      .error ⟨400, "stdio type requires a command"⟩
    -- filepath.IsAbs
    else if cfg.type = "stdio" ∧ cfg.command.toList.head? ≠ some '/' then
      .error ⟨400, "stdio command must be an absolute path"⟩
    else .ok cfg

namespace AdminMCPHandler

variable (decode : String → Option ServerConfig)

/-- The hub and the handler as `buildMCPHub` and `registerMCPRoutes` make them of the
configured servers. -/
def start (servers : List ServerConfig) : AdminMCPHandler where
  hub := servers.foldl (fun h cfg => h.register (newServer cfg)) {}
  cfgs := servers.map fun cfg =>
    { name := cfg.name, type := cfg.type, url := cfg.url, command := cfg.command,
      args := cfg.args }

def listServers (h : AdminMCPHandler) (up : Upstream) : List ServerInfo :=
  h.cfgs.map fun cfg =>
    let status := ((h.hub.healthAll up).lookup cfg.name).getD ""
    { name := cfg.name, type := cfg.type, url := cfg.url
      status := if status = "" then "unknown" else status }

def registerServer (h : AdminMCPHandler) (body : String) (connect : Option String) :
    AdminMCPHandler × Reply :=
  match checkConfig decode body with
  | .error reply => (h, reply)
  | .ok cfg =>
    match connect with
    | some err => (h, ⟨502, err⟩)
    | none =>
      ({ hub := h.hub.register (newServer cfg), cfgs := h.cfgs ++ [cfg] },
        ⟨201, "server registered and connected"⟩)

def deleteServer (h : AdminMCPHandler) (name : String) : AdminMCPHandler × Reply :=
  match h.hub.server name with
  | .error _ => (h, ⟨404, "server not found"⟩)
  | .ok _ =>
    ({ hub := h.hub.closeServer name, cfgs := h.cfgs.filter fun cfg => cfg.name != name },
      ⟨200, "server removed"⟩)

def handle (h : AdminMCPHandler) : AdminRequest → AdminMCPHandler × Reply
  | .registerServer body connect => h.registerServer decode body connect
  | .deleteServer name => h.deleteServer name

def after (h : AdminMCPHandler) (reqs : List AdminRequest) : AdminMCPHandler :=
  reqs.foldl (fun h req => (h.handle decode req).1) h

end AdminMCPHandler

def AdminRequest.registers (decode : String → Option ServerConfig) : AdminRequest → Option String
  | .registerServer body none => (checkConfig decode body).toOption.map ServerConfig.name
  | _ => none

/-! ## What the hub resolves -/

namespace Hub

variable {name : String} {h : Hub}

theorem lookup_isSome_iff {β : Type} {m : List (String × β)} :
    (m.lookup name).isSome ↔ name ∈ m.map Prod.fst := by
  rw [List.lookup_isSome_iff, List.mem_map]
  constructor
  · rintro ⟨p, hp, hname⟩
    exact ⟨p, hp, (beq_iff_eq.mp hname).symm⟩
  · rintro ⟨p, hp, rfl⟩
    exact ⟨p, hp, beq_self_eq_true _⟩

theorem server_eq_ok_iff : (∃ s, h.server name = .ok s) ↔ name ∈ h.serverNames := by
  rw [serverNames, ← lookup_isSome_iff, Option.isSome_iff_exists, server]
  cases h.servers.lookup name <;> simp

theorem server_eq_error (hname : name ∉ h.serverNames) :
    h.server name = .error (serverNotFound name) := by
  rw [serverNames, ← lookup_isSome_iff, Option.isSome_iff_ne_none, not_not] at hname
  rw [server, hname]

theorem mem_serverNames_register {s : Server} :
    name ∈ (h.register s).serverNames ↔ name ∈ h.serverNames ∨ name = s.name := by
  simp only [serverNames, register, map_cons, mem_cons, List.mem_map, mem_filter, bne_iff_ne]
  constructor
  · rintro (rfl | ⟨kv, ⟨hkv, -⟩, rfl⟩)
    · exact .inr rfl
    · exact .inl ⟨kv, hkv, rfl⟩
  · rintro (⟨kv, hkv, rfl⟩ | rfl)
    · by_cases hname : kv.1 = s.name
      · exact .inl hname
      · exact .inr ⟨kv, ⟨hkv, hname⟩, rfl⟩
    · exact .inl rfl

@[simp] theorem serverNames_closeServer (h : Hub) (name : String) :
    (h.closeServer name).serverNames = h.serverNames := by
  simp only [serverNames, closeServer, map_map]
  refine map_congr_left fun kv _ => ?_
  dsimp only [Function.comp]
  split_ifs <;> rfl

structure Gone (h : Hub) (name : String) : Prop where
  server : h.server name = .error (serverNotFound name)
  tools : ∀ up, ∀ t ∈ h.listAllTools up, t.server ≠ name
  calls : ∀ up tool args, h.callTool up name tool args = .error (serverNotFound name)

theorem gone_iff : h.Gone name ↔ name ∉ h.serverNames := by
  constructor
  · intro hgone hname
    obtain ⟨s, hs⟩ := server_eq_ok_iff.mpr hname
    rw [hgone.server] at hs
    cases hs
  · intro hname
    refine ⟨server_eq_error hname, fun up t ht heq => ?_, fun up tool args => ?_⟩
    · obtain ⟨kv, hkv, ht⟩ := mem_flatMap.mp ht
      split at ht
      · obtain ⟨t', -, rfl⟩ := mem_map.mp ht
        exact hname (mem_map.mpr ⟨kv, hkv, heq⟩)
      · cases ht
    · rw [callTool, server_eq_error hname]

end Hub

namespace AdminMCPHandler

variable {decode : String → Option ServerConfig}

variable {h : AdminMCPHandler} {name : String} {servers : List ServerConfig}
  {reqs : List AdminRequest}

theorem mem_serverNames_handle {req : AdminRequest} :
    name ∈ (h.handle decode req).1.hub.serverNames ↔
      name ∈ h.hub.serverNames ∨ name ∈ req.registers decode := by
  cases req with
  | registerServer body connect =>
    rw [handle, registerServer]
    cases connect with
    | some err =>
      cases checkConfig decode body <;> simp [AdminRequest.registers]
    | none =>
      cases hcfg : checkConfig decode body with
      | error reply => simp [AdminRequest.registers, hcfg, Except.toOption]
      | ok cfg =>
        dsimp only
        rw [Hub.mem_serverNames_register]
        simp [AdminRequest.registers, hcfg, Except.toOption, Server.name, newServer, eq_comm]
  | deleteServer name' =>
    rw [handle, deleteServer]
    cases h.hub.server name' <;> simp [AdminRequest.registers]

def registered (decode : String → Option ServerConfig) (reqs : List AdminRequest) : List String :=
  reqs.filterMap (·.registers decode)

theorem registered_concat (reqs : List AdminRequest) (req : AdminRequest) :
    registered decode (reqs ++ [req]) =
      registered decode reqs ++ (req.registers decode).toList := by
  rw [registered, filterMap_append]
  cases hreg : req.registers decode <;> simp [registered, hreg]

theorem after_concat (h : AdminMCPHandler) (reqs : List AdminRequest) (req : AdminRequest) :
    h.after decode (reqs ++ [req]) = ((h.after decode reqs).handle decode req).1 := by
  rw [after, foldl_append]
  rfl

theorem mem_serverNames_start :
    name ∈ (start servers).hub.serverNames ↔ name ∈ servers.map ServerConfig.name := by
  have hfold : ∀ h : Hub, name ∈ (servers.foldl
      (fun h cfg => h.register (newServer cfg)) h).serverNames ↔
        name ∈ h.serverNames ∨ name ∈ servers.map ServerConfig.name := by
    induction servers with
    | nil => simp
    | cons cfg servers ih =>
      intro h
      rw [foldl_cons, ih, Hub.mem_serverNames_register, or_assoc]
      exact or_congr_right mem_cons.symm
  exact (hfold {}).trans (by simp [Hub.serverNames])

/-- **The hub resolves what was configured or ever registered**, deleted or not. -/
theorem resolves_after_iff :
    name ∈ ((start servers).after decode reqs).hub.serverNames ↔
      name ∈ servers.map ServerConfig.name ++ registered decode reqs := by
  -- the requests are taken from the last one on
  induction reqs using reverseRecOn with
  | nil => simpa [after, registered] using mem_serverNames_start
  | append_singleton reqs req ih =>
    rw [after_concat, mem_serverNames_handle, ih, registered_concat, ← append_assoc,
      mem_append (t := Option.toList _), Option.mem_toList]
    exact Iff.rfl

/-! ## The list -/

def listedNames (h : AdminMCPHandler) : List String := h.cfgs.map ServerConfig.name

theorem listServers_names (h : AdminMCPHandler) (up : Upstream) :
    (h.listServers up).map ServerInfo.name = h.listedNames := by
  simp [listServers, listedNames]

def Deletes (h : AdminMCPHandler) : AdminRequest → Prop
  | .registerServer .. => False
  | .deleteServer name => name ∈ h.hub.serverNames

theorem listedNames_handle {req : AdminRequest} (hreq : ¬ h.Deletes req) :
    (h.handle decode req).1.listedNames = h.listedNames ++ (req.registers decode).toList := by
  cases req with
  | registerServer body connect =>
    rw [handle, registerServer]
    cases connect with
    | some err => cases checkConfig decode body <;> simp [AdminRequest.registers]
    | none =>
      cases hcfg : checkConfig decode body <;>
        simp [AdminRequest.registers, hcfg, Except.toOption, listedNames]
  | deleteServer name =>
    rw [handle, deleteServer, Hub.server_eq_error hreq]
    simp [AdminRequest.registers]

theorem deleteServer_status_iff :
    (h.deleteServer name).2.status = 200 ↔ name ∈ h.hub.serverNames := by
  rw [deleteServer, ← Hub.server_eq_ok_iff]
  cases h.hub.server name <;> simp

def DeletesNone (decode : String → Option ServerConfig) (servers : List ServerConfig)
    (reqs : List AdminRequest) : Prop :=
  ∀ pre name post, reqs = pre ++ .deleteServer name :: post →
    name ∉ servers.map ServerConfig.name ++ registered decode pre

theorem DeletesNone.of_prefix {pre : List AdminRequest} (h : DeletesNone decode servers reqs)
    (hpre : pre <+: reqs) : DeletesNone decode servers pre := by
  obtain ⟨rest, rfl⟩ := hpre
  intro pre' name post heq
  exact h pre' name (post ++ rest) (by rw [heq, append_assoc, cons_append])

theorem listedNames_after (h : DeletesNone decode servers reqs) :
    ((start servers).after decode reqs).listedNames =
      servers.map ServerConfig.name ++ registered decode reqs := by
  induction reqs using reverseRecOn with
  | nil => simp [after, start, listedNames, registered, Function.comp_def]
  | append_singleton reqs req ih =>
    have hreq : ¬ ((start servers).after decode reqs).Deletes req := by
      cases req with
      | registerServer body connect => exact id
      | deleteServer name => exact fun hmem => h reqs name [] rfl (resolves_after_iff.mp hmem)
    rw [after_concat, listedNames_handle hreq, ih (h.of_prefix (prefix_append _ _)),
      registered_concat, append_assoc]

/-! ## The list and the hub -/

def Consistent (h : AdminMCPHandler) : Prop :=
  ∀ up, ((h.listServers up).map ServerInfo.name).Nodup ∧
    ∀ name, name ∈ (h.listServers up).map ServerInfo.name ↔ name ∈ h.hub.serverNames

/-- List and hub agree, and a deleted name is gone from the hub until it is registered again. -/
structure Keeps (decode : String → Option ServerConfig) (servers : List ServerConfig)
    (reqs : List AdminRequest) : Prop where
  consistent : ∀ pre, pre <+: reqs → ((start servers).after decode pre).Consistent
  gone : ∀ pre name mid, pre ++ .deleteServer name :: mid <+: reqs →
    (((start servers).after decode pre).deleteServer name).2.status = 200 →
    name ∉ registered decode mid →
    ((start servers).after decode (pre ++ .deleteServer name :: mid)).hub.Gone name

structure NewNamesOnly (decode : String → Option ServerConfig) (servers : List ServerConfig)
    (reqs : List AdminRequest) : Prop where
  nodup : (servers.map ServerConfig.name ++ registered decode reqs).Nodup
  deletes : DeletesNone decode servers reqs

theorem registered_initial {pre : List AdminRequest} (h : pre <+: reqs) :
    registered decode pre <+: registered decode reqs := h.filterMap _

/-- **The registry of servers.** Along every sequence of admin requests, the list and the hub have
the same names, none twice, and deleted names are gone, iff no request deletes a server that the hub
has or registers a name that it has, and the configured names are distinct. -/
theorem registry_iff (decode : String → Option ServerConfig) (servers : List ServerConfig)
    (reqs : List AdminRequest) :
    Keeps decode servers reqs ↔ NewNamesOnly decode servers reqs := by
  constructor
  · intro h
    have hdeletes : DeletesNone decode servers reqs := by
      rintro pre name post rfl hname
      -- the hub still has the name right after the deletion
      have hgone := h.gone pre name []
        ((prefix_append_right_inj pre).mpr (prefix_append [_] post))
        (deleteServer_status_iff.mpr (resolves_after_iff.mpr hname)) not_mem_nil
      refine Hub.gone_iff.mp hgone (resolves_after_iff.mpr ?_)
      rw [registered_concat]
      simpa [AdminRequest.registers] using hname
    refine ⟨?_, hdeletes⟩
    rw [← listedNames_after hdeletes, ← listServers_names _ ⟨fun _ => none, fun _ => .ok [],
      fun _ _ _ => .ok ""⟩]
    exact (h.consistent reqs (prefix_refl reqs) _).1
  · intro h
    refine ⟨fun pre hpre up => ?_, fun pre name mid hpre hstatus _ => ?_⟩
    · rw [listServers_names, listedNames_after (h.deletes.of_prefix hpre)]
      refine ⟨h.nodup.sublist ?_, fun name => resolves_after_iff.symm⟩
      exact (registered_initial hpre).sublist.append_left _
    · obtain ⟨rest, rfl⟩ := hpre
      rw [deleteServer_status_iff, resolves_after_iff] at hstatus
      exact absurd hstatus (h.deletes pre name (mid ++ rest) (by simp))

/-- A configured server that is deleted stays in the hub; one registered again is on the list twice. -/
theorem registry_drifts :
    (let files : ServerConfig := { name := "files", type := "sse", url := "http://files" }
     let closed : Server := { transport := .sse, cfg := files, closed := true }
     let h := (start [files]).after (fun _ => none) [.deleteServer "files"]
     ((start [files]).deleteServer "files").2 = ⟨200, "server removed"⟩ ∧ h.listedNames = [] ∧
       h.hub.server "files" = .ok closed ∧
       ∀ up tool args, h.hub.callTool up "files" tool args = up.callTool closed tool args) ∧
    (let files : ServerConfig := { name := "files", type := "sse", url := "http://files" }
     let h := (start [files]).after (fun _ => some files) [.registerServer "" none]
     h.listedNames = ["files", "files"] ∧ h.hub.serverNames = ["files"]) := by
  refine ⟨⟨by decide, by decide, by decide, fun up tool args => rfl⟩, by decide⟩

end AdminMCPHandler

end LlmRouter.Mcp.Admin
