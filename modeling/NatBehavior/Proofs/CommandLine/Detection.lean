import Mathlib.Tactic.TFAE
import NatBehavior.CommandLine.Program
import NatBehavior.Proofs.Address.Text
import NatBehavior.Proofs.Discovery.Detector
import NatBehavior.Proofs.Text.JsonValue

/-! What a run found out is what the program tells: by its exit code, and in the report for
machines. A text is the report of one value only, so the report is told by the output. -/
namespace NatBehavior

/-- The member of an object with a name. -/
def JsonValue.member? (name : String) : JsonValue → Option JsonValue
  | .object members => members.lookup name
  | _ => none

theorem NatType.name_eq_error_iff {t : NatType} : t.name = "error" ↔ t = .error := by
  constructor
  · intro h
    have hname := ofName?_name t
    rw [h] at hname
    exact (Option.some.inj hname).symm
  · rintro rfl
    rfl

namespace Classification

variable {c : Classification} {server : String}

theorem member?_error_report_eq_null_iff :
    (c.report server).member? "error" = some .null ↔ c.error = none := by
  obtain ⟨natType, hosts, error⟩ := c
  cases error with
  | none => exact iff_of_true rfl rfl
  | some e =>
    have hmember : ((mk natType hosts (some e)).report server).member? "error" =
        some (.string e.message) := rfl
    rw [hmember]
    exact iff_of_false (fun h => nomatch h) (Option.some_ne_none e)

theorem member?_natType_report_eq_error_iff :
    (c.report server).member? "nat_type" = some (.string "error") ↔ c.natType = .error := by
  have hmember : (c.report server).member? "nat_type" = some (.string c.natType.name) := rfl
  rw [hmember, ← NatType.name_eq_error_iff]
  exact ⟨fun h => JsonValue.string.inj (Option.some.inj h), fun h => congrArg _ (congrArg _ h)⟩

/-- The hosts of a report are read back. -/
theorem member?_hosts_report (c : Classification) (server : String) :
    ∃ texts : List String,
      (c.report server).member? "hosts" = some (.array (texts.map .string)) ∧
      texts.map (Host.ofText? ·.toList) = c.hosts.map some := by
  refine ⟨c.hosts.map toString, congrArg (some ∘ JsonValue.array) List.map_map.symm, ?_⟩
  rw [List.map_map]
  refine List.map_congr_left fun host _ => ?_
  have htext : (toString host).toList = host.text := String.toList_ofList
  rw [Function.comp_apply, htext, Host.ofText?_text]

end Classification

namespace CommandLine

variable {σ : Type}

/-- Whether every classification that the environment gives was found by a run of the detector,
over some network. -/
def Environment.RunsDetectors (env : Environment (StateM σ)) : Prop :=
  ∀ d deadline s c, ((env.discover d deadline).run s).1.1 = some c →
    ∃ (ε τ : Type) (resolve : String → Stoppable ε τ (Except IoError (List Endpoint)))
      (bind : Endpoint → Stoppable ε τ (Except IoError (Socket (Stoppable ε τ)))) (t t' : τ),
      ((d.discover resolve bind).run).run t = (.ok c, t')

/-- A detect command whose settings can be used and whose run ended before the deadline. -/
structure Completed (env : Environment (StateM σ)) (args : List String) (s : σ) (i : Invocation)
    (server? : Option String) (configured : Settings) (c : Classification) : Prop where
  invoked : invocation args = .ok i
  detects : ∃ bind deadline, i.command = .detect server? bind deadline
  ended : ∃ t settings d, (loadSettings env i.configPath).run s = (.ok configured, t) ∧
    effective i.command (.ok configured) = .ok settings ∧ settings.detector? = some d ∧
    ((env.discover d settings.deadline).run t).1.1 = some c

variable {env : Environment (StateM σ)} {args : List String} {s : σ} {i : Invocation}
  {server? : Option String} {configured : Settings} {c : Classification}

theorem eq_override_of_effective {command : Command} {settings : Settings}
    (h : effective command (.ok configured) = .ok settings) :
    settings = command.override configured := by
  simp only [effective, bind, Except.bind] at h
  cases hvalid : (command.override configured).validate with
  | error reason =>
    rw [hvalid] at h
    cases h
  | ok _ =>
    rw [hvalid] at h
    exact (Except.ok.inj h).symm

theorem Completed.output (h : Completed env args s i server? configured c) :
    ∃ settings elapsed, settings.server = server?.getD configured.server ∧
      ((run env args).run s).1 = detectOutput i.json settings (some c, elapsed) := by
  obtain ⟨bind, deadline, hcommand⟩ := h.detects
  obtain ⟨t, settings, d, hload, heffective, hdetector, hended⟩ := h.ended
  have hserver : settings.server = server?.getD configured.server := by
    rw [eq_override_of_effective heffective, hcommand]
    rfl
  rcases hfound : (env.discover d settings.deadline).run t with ⟨⟨found, elapsed⟩, u⟩
  obtain rfl : found = some c := by
    rw [hfound] at hended
    exact hended
  refine ⟨settings, elapsed, hserver, ?_⟩
  rw [run, h.invoked]
  dsimp only
  rw [run_bind_of_run hload, heffective, hcommand]
  dsimp only
  rw [hdetector]
  dsimp only
  rw [run_bind_of_run hfound]
  rfl

theorem Completed.error_eq_none_iff (hruns : env.RunsDetectors)
    (h : Completed env args s i server? configured c) : c.error = none ↔ c.natType ≠ .error := by
  obtain ⟨t, settings, d, -, -, -, hended⟩ := h.ended
  obtain ⟨ε, τ, resolve, bind, u, u', hrun⟩ := hruns d settings.deadline t c hended
  have hconsistent := not_congr (Detector.consistent_discover hrun)
  exact (hconsistent.trans Classical.not_not).symm

theorem exitCode_detectOutput_eq_zero_iff {json : Bool} {settings : Settings}
    {elapsed : Duration} :
    (detectOutput json settings (some c, elapsed)).exitCode = 0 ↔ c.error = none := by
  have hcode : (detectOutput json settings (some c, elapsed)).exitCode =
      if c.isOk then 0 else 1 := by
    cases json <;> rfl
  rw [hcode, Classification.isOk]
  cases c.error with
  | none => exact iff_of_true rfl rfl
  | some e => exact iff_of_false (by simp) (Option.some_ne_none e)

/-- The output of a run for machines is the JSON text of its report, and of no other value. -/
theorem stdout_detectOutput {settings : Settings} {elapsed : Duration} :
    JsonValue.ofText? (detectOutput true settings (some c, elapsed)).stdout =
        some (c.report settings.server) ∧
      ∀ v : JsonValue, (detectOutput true settings (some c, elapsed)).stdout = v.text ++ "\n" ↔
        v = c.report settings.server := by
  have hread : ∀ v : JsonValue, JsonValue.ofText? (v.text ++ "\n") = some v := fun v =>
    JsonValue.ofText?_text_append v (by decide)
  have hstdout : (detectOutput true settings (some c, elapsed)).stdout =
      (c.report settings.server).text ++ "\n" := rfl
  rw [hstdout]
  refine ⟨hread _, fun v => ⟨fun h => ?_, fun h => by rw [h]⟩⟩
  have hsame := congrArg JsonValue.ofText? h
  rw [hread, hread] at hsame
  exact (Option.some.inj hsame).symm

/-- Failures are told the same way everywhere. A run that cannot start fails with what barred it,
without hosts and with nothing sent; a verdict is an error exactly where the run failed; and the
exit code and the report, which the JSON text that is printed tells, say which it was, with the
hosts and the server. -/
theorem detection_reported :
    (∀ (ε σ : Type) (d : Detector)
      (resolve : String → Stoppable ε σ (Except IoError (List Endpoint)))
      (bind : Endpoint → Stoppable ε σ (Except IoError (Socket (Stoppable ε σ)))) (s s' : σ),
      (∀ c, ((d.discover resolve bind).run).run s = (.ok c, s') →
        (c.natType = .error ↔ c.error ≠ none)) ∧
      ∀ e, d.Barred resolve bind s e s' →
        ((d.discover resolve bind).run).run s = (.ok (.failed e []), s')) ∧
    ∀ (σ : Type) (env : Environment (StateM σ)) (args : List String) (s : σ) (i : Invocation)
      (server? : Option String) (configured : Settings) (c : Classification),
      env.RunsDetectors → Completed env args s i server? configured c →
        [((run env args).run s).1.exitCode = 0, c.error = none, c.natType ≠ .error].TFAE ∧
        (i.json = true → ∃ report : JsonValue,
          JsonValue.ofText? ((run env args).run s).1.stdout = some report ∧
          (∀ v : JsonValue, ((run env args).run s).1.stdout = v.text ++ "\n" ↔ v = report) ∧
          [((run env args).run s).1.exitCode = 0, c.error = none, c.natType ≠ .error,
            report.member? "error" = some .null,
            report.member? "nat_type" ≠ some (.string "error")].TFAE ∧
          (∃ texts : List String, report.member? "hosts" = some (.array (texts.map .string)) ∧
            texts.map (Host.ofText? ·.toList) = c.hosts.map some) ∧
          report.member? "server" = some (.string (server?.getD configured.server))) := by
  refine ⟨fun ε σ d resolve bind s s' => ⟨fun c => Detector.consistent_discover,
    fun e => Detector.discover_of_barred⟩, ?_⟩
  intro σ env args s i server? configured c hruns hcompleted
  obtain ⟨settings, elapsed, hserver, houtput⟩ := hcompleted.output
  have hnatType := hcompleted.error_eq_none_iff hruns
  have hexit : ((run env args).run s).1.exitCode = 0 ↔ c.error = none := by
    rw [houtput, exitCode_detectOutput_eq_zero_iff]
  constructor
  · tfae_have 1 ↔ 2 := hexit
    tfae_have 2 ↔ 3 := hnatType
    tfae_finish
  · intro hjson
    obtain ⟨hread, hunique⟩ : _ ∧ _ := stdout_detectOutput (c := c)
    rw [← hjson, ← houtput] at hread hunique
    refine ⟨c.report settings.server, hread, hunique, ?_, c.member?_hosts_report settings.server, ?_⟩
    · tfae_have 1 ↔ 2 := hexit
      tfae_have 2 ↔ 3 := hnatType
      tfae_have 2 ↔ 4 := Classification.member?_error_report_eq_null_iff.symm
      tfae_have 3 ↔ 5 := not_congr Classification.member?_natType_report_eq_error_iff.symm
      tfae_finish
    · rw [← hserver]
      rfl

/-- A machine without files, on which runs take no time and are never stopped. -/
def Environment.bare (resolve : String → Stoppable Empty σ (Except IoError (List Endpoint)))
    (bind : Endpoint → Stoppable Empty σ (Except IoError (Socket (Stoppable Empty σ)))) :
    Environment (StateM σ) where
  contents _ := pure (.error ⟨.notFound, "No such file or directory (os error 2)"⟩)
  fileExists _ := pure false
  defaultPath := "/home/user/.config/natprobe/config.toml"
  discover d _ := do
    let c ← (d.discover resolve bind).run
    return (c.toOption, .ofSecs 0)

section

variable {resolve : String → Stoppable Empty σ (Except IoError (List Endpoint))}
  {bind : Endpoint → Stoppable Empty σ (Except IoError (Socket (Stoppable Empty σ)))}

theorem Environment.discover_bare {d : Detector} {deadline : Duration} {s' : σ}
    (h : ((d.discover resolve bind).run).run s = (.ok c, s')) :
    ((Environment.bare resolve bind).discover d deadline).run s =
      ((some c, .ofSecs 0), s') := by
  rw [Environment.bare, run_bind_of_run h]
  rfl

theorem Environment.runsDetectors_bare : (Environment.bare resolve bind).RunsDetectors := by
  intro d deadline s c h
  rcases hrun : ((d.discover resolve bind).run).run s with ⟨stop | c', s'⟩
  · cases stop
  · rw [discover_bare hrun] at h
    obtain rfl := Option.some.inj h
    exact ⟨Empty, σ, resolve, bind, s, s', hrun⟩

end

/-- A socket on which every answer comes from one address and shows one mapping. -/
def answeredFrom (source mapped : Endpoint) : Socket (Stoppable Empty Unit) where
  fresh := pure .zero
  transmit _ _ := pure ()
  deadline wait := pure wait.nanos
  receive _ :=
    pure (some ⟨Stun.Message.encode ⟨.success, .zero, [.xorMappedAddress mapped]⟩, source⟩)
  ownToward _ := pure (.v4 ⟨10, 0, 0, 1⟩ 40000)

theorem run_exchange_answeredFrom {source mapped dest : Endpoint} {r : Retransmission}
    {request message : Stun.Message} (hsome : 0 < r.transmissions)
    (hreply : replyTo? request.transaction
      (Stun.Message.encode ⟨.success, .zero, [.xorMappedAddress mapped]⟩) = some message) :
    (((answeredFrom source mapped).exchange r request dest).run.run).run () =
      (.ok (.ok (some (message, source))), ()) := by
  have hawait : ∀ deadline, (((answeredFrom source mapped).awaitReply request.transaction
      deadline).run.run).run () = (.ok (.ok (some (message, source))), ()) := by
    intro deadline
    rw [Socket.run_awaitReply_of_some rfl, hreply]
  obtain ⟨n, hn⟩ := Nat.exists_eq_succ_of_ne_zero (Nat.ne_of_gt hsome)
  rw [Socket.exchange, hn, Socket.run_exchangeFrom_of_reply rfl rfl (hawait _)]

theorem run_probe_answeredFrom {source mapped : Endpoint} {r : Retransmission}
    {software : Option String} {dest : Host} {change : ChangeRequest} {message : Stun.Message}
    (hsome : 0 < r.transmissions)
    (hreply : replyTo? .zero
      (Stun.Message.encode ⟨.success, .zero, [.xorMappedAddress mapped]⟩) = some message) :
    (((answeredFrom source mapped).probe r software dest change).run).run () =
      (.ok ((Response.ofMessage message source (.v4 ⟨10, 0, 0, 1⟩ 40000)).map some), ()) := by
  have hexchange : (((answeredFrom source mapped).exchange r (probeRequest .zero change software)
      dest.toEndpoint).run.run).run () = (.ok (.ok (some (message, source))), ()) :=
    run_exchange_answeredFrom hsome hreply
  have hfresh : (((answeredFrom source mapped).fresh).run).run () = (.ok .zero, ()) := rfl
  rw [Socket.probe, run_bind_of_ok hfresh, run_bind_of_ok hexchange]
  rfl

/-- The first answer comes from another address than the server's, so the run has failed and its
only host is shown. Names without addresses end a run before that. -/
theorem detection_reported_stray :
    let mapped : Endpoint := .v6 ⟨[0x2001, 0xDB8, 0, 0, 0, 0, 0, 7], rfl⟩ 50000 0 0
    let bind (_ : Endpoint) : Stoppable Empty Unit (Except IoError (Socket _)) :=
      pure (.ok (answeredFrom (.v4 ⟨198, 51, 100, 2⟩ 3478) mapped))
    let env := Environment.bare (fun _ => pure (.ok [.v4 ⟨198, 51, 100, 1⟩ 3478])) bind
    let args := ["--json", "detect", "--server", "198.51.100.1:3478"]
    let c : Classification := .failed .addressMismatch [.ofEndpoint mapped]
    let i : Invocation := ⟨false, none, true, .detect (some "198.51.100.1:3478") none none⟩
    env.RunsDetectors ∧ Completed env args () i (some "198.51.100.1:3478") {} c ∧
    ((run env args).run ()).1.exitCode ≠ 0 ∧
    (∃ report : JsonValue, JsonValue.ofText? ((run env args).run ()).1.stdout = some report ∧
      report.member? "error" ≠ some .null ∧
      report.member? "nat_type" = some (.string "error") ∧
      report.member? "server" = some (.string "198.51.100.1:3478")) ∧
    let resolve (_ : String) : Stoppable Empty Unit (Except IoError (List Endpoint)) :=
      pure (.ok [])
    ((Detector.standard.discover resolve bind).run).run () =
      (.ok (.failed (.resolve defaultServer ⟨.notFound, "no addresses returned"⟩) []), ()) := by
  intro mapped bind env args c i
  have hruns : env.RunsDetectors := Environment.runsDetectors_bare
  let d : Detector := { Detector.standard with server := "198.51.100.1:3478" }
  let message : Stun.Message := ⟨.success, .zero, [.xorMappedAddress mapped]⟩
  have hrun : ((d.discover (fun _ => pure (.ok [.v4 ⟨198, 51, 100, 1⟩ 3478])) bind).run).run () =
      (.ok c, ()) := by
    have hreply : replyTo? .zero message.encode = some message := by decide +kernel
    have hselect : d.selectServer (.ok [.v4 ⟨198, 51, 100, 1⟩ 3478]) =
        .ok (.v4 ⟨198, 51, 100, 1⟩ 3478) := rfl
    rw [Detector.discover_of_bind_ok rfl hselect rfl, Detector.discoverWith, classify,
      Flowchart.baseline, Flowchart.ask,
      Inquiry.run_probe_of_ok (run_probe_answeredFrom (by decide) hreply)]
    rfl
  have hended : ∀ deadline, ((env.discover d deadline).run ()).1.1 = some c := by
    intro deadline
    rw [Environment.discover_bare hrun]
  have hcompleted : Completed env args () i (some "198.51.100.1:3478") {} c :=
    ⟨by decide +kernel, ⟨none, none, rfl⟩, (), { server := "198.51.100.1:3478" },
      d, rfl, by decide +kernel, by decide +kernel, hended _⟩
  have hfailed : c.error ≠ none := Option.some_ne_none _
  obtain ⟨hdiscover, hdetect⟩ := detection_reported
  obtain ⟨-, hreport⟩ := hdetect Unit env args () i _ {} c hruns hcompleted
  obtain ⟨report, hread, -, htfae, -, hserver⟩ := hreport rfl
  refine ⟨hruns, hcompleted, mt (htfae.out 0 1).mp hfailed, ⟨report, hread,
    mt (htfae.out 3 1).mp hfailed, ?_, hserver⟩, ?_⟩
  · exact Classical.not_not.mp (mt (htfae.out 4 1).mp hfailed)
  · obtain ⟨-, hbarred⟩ := hdiscover Empty Unit .standard (fun _ => pure (.ok [])) bind () ()
    exact hbarred _ (.noAddress rfl)

end CommandLine

end NatBehavior
