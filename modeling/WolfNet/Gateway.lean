import Mathlib.Logic.Function.Basic
import WolfNet.Semantics.Commands
import WolfNet.Semantics.Run
import WolfNet.Std.Text

/-!
# The gateway's packet filter rules

A gateway masquerades what the network sends to the outside. It adds its rules with `iptables` when
the daemon starts and deletes them when the daemon ends. How `iptables` reads the words of a rule is
a parameter: what matters is that it deletes the first rule of a chain that reads the same.
-/

namespace WolfNet

open WolfNet.Std WolfNet.Semantics

namespace Gateway

/-- `str::split_whitespace`. -/
def splitWhitespace (text : List Char) : List (List Char) :=
  (text.splitOnP isWhitespace).filter (· ≠ [])

/-- The word after the first `dev`. -/
def afterDev : List (List Char) → Option (List Char)
  | first :: second :: words =>
    if first = "dev".toList then some second else afterDev (second :: words)
  | _ => none

/-- The default internet-facing interface, from what `ip route show default` prints, if it could be
invoked. -/
def detectExternalInterface (output : Option (List UInt8)) : Option String :=
  (output.bind fun stdout => afterDev (splitWhitespace (fromUtf8Lossy stdout).toList)).map .ofList

/-- The interface is one of the words. -/
theorem mem_of_afterDev {words : List (List Char)} {word : List Char}
    (found : afterDev words = some word) : word ∈ words := by
  fun_induction afterDev words with
  | case1 =>
      cases found
      simp
  | case2 _ _ _ _ ih => exact List.mem_cons_of_mem _ (ih found)
  | case3 => cases found

/-- An interface has a name. -/
theorem detectExternalInterface_ne {output : Option (List UInt8)} {extIface : String}
    (detected : detectExternalInterface output = some extIface) : extIface ≠ "" := by
  obtain ⟨word, found, rfl⟩ := Option.map_eq_some_iff.mp detected
  obtain ⟨stdout, _, found⟩ := Option.bind_eq_some_iff.mp found
  have inked := (List.mem_filter.mp (mem_of_afterDev found)).2
  intro empty
  have none : word = [] := by simpa using congrArg String.toList empty
  simp [none] at inked

/-- A chain of a table. -/
abbrev Chain := String × String

/-- What the gateway changes of its host: the rules of the packet filter, and the kernel settings
that were assigned, in order. -/
structure Host (Rule : Type) where
  chains : Chain → List Rule
  settings : List String

variable {Rule : Type} [DecidableEq Rule]

/-- Add a rule at the end of its chain. -/
def Host.append (host : Host Rule) (entry : Chain × Rule) : Host Rule :=
  { host with
    chains := Function.update host.chains entry.1 (host.chains entry.1 ++ [entry.2]) }

/-- Delete the first such rule of a chain, if there is one. -/
def Host.delete (host : Host Rule) (entry : Chain × Rule) : Option (Host Rule) :=
  if entry.2 ∈ host.chains entry.1 then
    some { host with
      chains := Function.update host.chains entry.1 ((host.chains entry.1).erase entry.2) }
  else none

/-- Assign a kernel setting. -/
def Host.assign (host : Host Rule) (assignment : String) : Host Rule :=
  { host with settings := host.settings ++ [assignment] }

/-- How often a rule is in a chain. -/
def Host.copies (host : Host Rule) (entry : Chain × Rule) : Nat :=
  (host.chains entry.1).count entry.2

section Commands

variable (read : List String → Rule)

/-- `iptables` on a table. -/
def onTable (table : String) (host : Host Rule) : List String → Option (Host Rule)
  | "-A" :: chain :: rule => some (host.append ((table, chain), read rule))
  | "-D" :: chain :: rule => host.delete ((table, chain), read rule)
  | _ => none

/-- `iptables`, for the arguments that the gateway gives it. -/
def iptables (args : List String) (host : Host Rule) : Option (Host Rule) :=
  match args with
  | "-t" :: table :: args => onTable read table host args
  | args => onTable read "filter" host args

/-- `sysctl`, for the arguments that the gateway gives it. -/
def sysctl (args : List String) (host : Host Rule) : Option (Host Rule) :=
  match args with
  | ["-w", assignment] => some (host.assign assignment)
  | _ => none

variable (wolfnetInterface subnet : String)

/-- The rule that masquerades what goes to the outside. -/
def masquerade (op extIface : String) : List String :=
  ["-t", "nat", op, "POSTROUTING", "-s", subnet, "-o", extIface, "-j", "MASQUERADE"]

/-- The rule that forwards to the outside. -/
def forwardOut (op extIface : String) : List String :=
  [op, "FORWARD", "-i", wolfnetInterface, "-o", extIface, "-j", "ACCEPT"]

/-- The rule that forwards what comes back. -/
def forwardIn (op extIface : String) : List String :=
  [op, "FORWARD", "-i", extIface, "-o", wolfnetInterface, "-m", "state", "--state",
    "ESTABLISHED,RELATED", "-j", "ACCEPT"]

/-- The rule of earlier versions, which is not added any more. -/
def legacyDrop (op extIface : String) : List String :=
  [op, "INPUT", "-i", extIface, "-d", subnet, "-j", "DROP"]

/-- Delete the rule of earlier versions, up to the given number of copies. -/
def dropLegacy (extIface : String) : Nat → Commands (Host Rule) Unit
  | 0 => pure ()
  | count + 1 => do
    match ← Commands.invoke (iptables read (legacyDrop subnet "-D" extIface)) with
    | .ok true => dropLegacy extIface count
    | _ => pure ()

/-- Enable gateway mode: forwarding, and the rules. -/
def enableGateway (route : Option (List UInt8)) : Commands (Host Rule) (Except String Unit) := do
  match detectExternalInterface route with
  | none => pure (.error "Could not detect external network interface")
  | some extIface =>
    let setting (iface value : String) := ["-w", "net.ipv4.conf." ++ iface ++ value]
    let _ ← Commands.invoke (sysctl (setting wolfnetInterface ".forwarding=1"))
    let _ ← Commands.invoke (sysctl (setting extIface ".forwarding=1"))
    let _ ← Commands.invoke (sysctl (setting wolfnetInterface ".send_redirects=0"))
    let _ ← Commands.invoke (sysctl (setting extIface ".send_redirects=0"))
    match ← Commands.invoke (iptables read (masquerade subnet "-A" extIface)) with
    | .error error => pure (.error error)
    | .ok _ =>
      match ← Commands.invoke (iptables read (forwardOut wolfnetInterface "-A" extIface)) with
      | .error error => pure (.error error)
      | .ok _ =>
        match ← Commands.invoke (iptables read (forwardIn wolfnetInterface "-A" extIface)) with
        | .error error => pure (.error error)
        | .ok _ => do
          dropLegacy read subnet extIface 4
          pure (.ok ())

/-- Clean up the gateway rules on shutdown. -/
def disableGateway (route : Option (List UInt8)) : Commands (Host Rule) Unit := do
  let extIface := (detectExternalInterface route).getD ""
  if extIface = "" then pure ()
  else
    let _ ← Commands.invoke (iptables read (masquerade subnet "-D" extIface))
    let _ ← Commands.invoke (iptables read (forwardOut wolfnetInterface "-D" extIface))
    let _ ← Commands.invoke (iptables read (forwardIn wolfnetInterface "-D" extIface))
    let _ ← Commands.invoke (iptables read (legacyDrop subnet "-D" extIface))

/-- The rules that a start adds. -/
def own (extIface : String) : List (Chain × Rule) := [
  (("nat", "POSTROUTING"), read ["-s", subnet, "-o", extIface, "-j", "MASQUERADE"]),
  (("filter", "FORWARD"), read ["-i", wolfnetInterface, "-o", extIface, "-j", "ACCEPT"]),
  (("filter", "FORWARD"), read ["-i", extIface, "-o", wolfnetInterface, "-m", "state", "--state",
    "ESTABLISHED,RELATED", "-j", "ACCEPT"])]

/-- The rule that earlier versions added. -/
def legacy (extIface : String) : Chain × Rule :=
  (("filter", "INPUT"), read ["-i", extIface, "-d", subnet, "-j", "DROP"])

/-- The kernel settings that a start assigns. -/
def assignments (extIface : String) : List String := [
  "net.ipv4.conf." ++ wolfnetInterface ++ ".forwarding=1",
  "net.ipv4.conf." ++ extIface ++ ".forwarding=1",
  "net.ipv4.conf." ++ wolfnetInterface ++ ".send_redirects=0",
  "net.ipv4.conf." ++ extIface ++ ".send_redirects=0"]

end Commands

section Copies

variable {host : Host Rule} {added removed entry : Chain × Rule} {count : Nat}

/-- An appended rule has one copy more. -/
@[simp] theorem copies_append :
    (host.append added).copies entry = host.copies entry + [added].count entry := by
  obtain ⟨chain, rule⟩ := entry
  obtain ⟨target, new⟩ := added
  unfold Host.copies Host.append
  dsimp only
  by_cases here : chain = target
  · subst here
    rw [Function.update_self, List.count_append]
    by_cases same : new = rule <;> simp [same]
  · rw [Function.update_of_ne here]
    simp [Ne.symm here]

/-- The first copy goes, where there is one. -/
theorem copies_delete : (Commands.report (·.delete removed) host).2.copies entry =
    host.copies entry - [removed].count entry := by
  obtain ⟨chain, rule⟩ := entry
  obtain ⟨target, old⟩ := removed
  unfold Commands.report Host.delete
  by_cases there : old ∈ host.chains target
  · simp only [if_pos there, Host.copies]
    by_cases here : chain = target
    · subst here
      rw [Function.update_self, List.count_erase]
      by_cases same : old = rule <;> simp [same]
    · rw [Function.update_of_ne here]
      simp [Ne.symm here]
  · simp only [if_neg there, Host.copies]
    by_cases same : (target, old) = (chain, rule)
    · cases same
      simp [List.count_eq_zero_of_not_mem there]
    · simp [same]

/-- Deleting a rule leaves the settings. -/
@[simp] theorem settings_delete :
    (Commands.report (·.delete removed) host).2.settings = host.settings := by
  unfold Commands.report Host.delete
  by_cases there : removed.2 ∈ host.chains removed.1
  · simp only [if_pos there]
  · simp only [if_neg there]

/-- A deletion reports failure where there is no copy. -/
theorem copies_of_failed (failed : (Commands.report (·.delete removed) host).1 = false) :
    host.copies removed = 0 := by
  by_cases there : removed.2 ∈ host.chains removed.1
  · simp [Commands.report, Host.delete, there] at failed
  · exact List.count_eq_zero_of_not_mem there

end Copies

section Undisturbed

variable (read : List String → Rule) (wolfnetInterface subnet : String) {host : Host Rule}
  {extIface : String} {route : Option (List UInt8)}

/-- Deleting a rule up to a number of times deletes that many copies of it. -/
theorem dropLegacy_undisturbed (extIface : String) (count : Nat) (host : Host Rule) :
    ∃ next, dropLegacy read subnet extIface count ⟨host, []⟩ = (some (), ⟨next, []⟩) ∧
      next.settings = host.settings ∧ ∀ entry, next.copies entry =
        host.copies entry - count * [legacy read subnet extIface].count entry := by
  induction count generalizing host with
  | zero => exact ⟨host, rfl, rfl, by simp⟩
  | succ count ih =>
      have command : iptables read (legacyDrop subnet "-D" extIface) =
          (Host.delete · (legacy read subnet extIface)) := rfl
      rw [dropLegacy, Commands.bind_invoke, command]
      cases success : (Commands.report (·.delete (legacy read subnet extIface)) host).1 with
      | true =>
          obtain ⟨next, dropped, settings, copies⟩ :=
            ih (Commands.report (·.delete (legacy read subnet extIface)) host).2
          refine ⟨next, dropped, settings.trans settings_delete, fun entry => ?_⟩
          rw [copies, copies_delete, Nat.sub_sub, Nat.succ_mul, Nat.add_comm]
      | false =>
          refine ⟨_, rfl, settings_delete, fun entry => ?_⟩
          rw [copies_delete]
          by_cases same : legacy read subnet extIface = entry
          · have none := copies_of_failed success
            rw [same] at none
            omega
          · simp [same]

/-- What a start does that nothing disturbs. -/
theorem enableGateway_undisturbed (detected : detectExternalInterface route = some extIface)
    (host : Host Rule) :
    ∃ next, enableGateway read wolfnetInterface subnet route ⟨host, []⟩ =
        (some (.ok ()), ⟨next, []⟩) ∧
      next.settings = host.settings ++ assignments wolfnetInterface extIface ∧
      ∀ entry, next.copies entry = host.copies entry +
        (own read wolfnetInterface subnet extIface).count entry -
          4 * [legacy read subnet extIface].count entry := by
  let assigned := (assignments wolfnetInterface extIface).foldl Host.assign host
  let added := (own read wolfnetInterface subnet extIface).foldl Host.append assigned
  obtain ⟨next, dropped, settings, copies⟩ := dropLegacy_undisturbed read subnet extIface 4 added
  have run : enableGateway read wolfnetInterface subnet route ⟨host, []⟩ =
      (dropLegacy read subnet extIface 4 >>= fun _ => pure (.ok ())) ⟨added, []⟩ := by
    unfold enableGateway
    rw [detected]
    rfl
  refine ⟨next, ?_, settings.trans ?_, fun entry => ?_⟩
  · rw [run, Commands.bind_apply, dropped]
    rfl
  · simp [added, assigned, own, assignments, Host.append, Host.assign]
  · rw [copies entry]
    congr 1
    simp only [added, own, List.foldl_cons, List.foldl_nil, copies_append, List.count_cons,
      List.count_nil]
    have same : assigned.copies entry = host.copies entry := rfl
    omega

/-- What a shutdown does that nothing disturbs. -/
theorem disableGateway_undisturbed (detected : detectExternalInterface route = some extIface)
    (present : extIface ≠ "") (host : Host Rule) :
    ∃ next, disableGateway read wolfnetInterface subnet route ⟨host, []⟩ =
        (some (), ⟨next, []⟩) ∧ next.settings = host.settings ∧
      ∀ entry, next.copies entry = host.copies entry -
        ((own read wolfnetInterface subnet extIface).count entry +
          [legacy read subnet extIface].count entry) := by
  let deleted (entry : Chain × Rule) (host : Host Rule) : Host Rule :=
    (Commands.report (·.delete entry) host).2
  let rules := own read wolfnetInterface subnet extIface ++ [legacy read subnet extIface]
  refine ⟨rules.foldl (fun host rule => deleted rule host) host, ?_, ?_, fun entry => ?_⟩
  · unfold disableGateway
    simp only [detected, Option.getD_some, if_neg present]
    rfl
  · simp [rules, own, deleted]
  · simp only [rules, own, List.cons_append, List.nil_append, List.foldl_cons, List.foldl_nil, deleted,
      copies_delete, List.count_cons, List.count_nil]
    omega

end Undisturbed
end Gateway
end WolfNet
