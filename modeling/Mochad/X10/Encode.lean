import Mochad.X10.Decode

/-!
# The command interpreter

`processcommandline` and what it calls: a line is put in upper case and cut into
tokens, the first token names a command, and the command reads the rest of the tokens
as its arguments. A command answers its sender, sends packets to the controller, or
both.

The interpreter looks at two things outside the X10 side: whether the sender is an
OpenRemote client, and what the queueing of a diagnostic reply returned. Both, with
the figures that the diagnostic commands report, are gathered in a `Ctx`.

The radio commands call the decoder, which may call the interpreter again with a
power-line command. The recursion ends there, which is what
`processDepth_eq` says: the depth at which `processcommandline` is cut off is never
reached.
-/

namespace Mochad

open X10M (gets modify)

/-- `mochad_diag_runtime`, less the uptime and the configuration. -/
structure DiagRuntime where
  usbConnected : Bool
  controller : Bytes
  endpointsReady : Bool
  transfersReady : Bool
  clientsMain : ℕ
  clientsXml : ℕ
  clientsOpenremote : ℕ
  usbOutCompleted : ℕ
  usbAckReceived : ℕ
  usbAckTimeout : ℕ
  usbUnexpectedOneByte : ℕ
  maxClients : ℕ
  nextClientId : ℕ

/-- **What the interpreter sees** of the rest of the daemon. -/
structure Ctx where
  /-- The surroundings. -/
  env : Env
  /-- `or20client`. -/
  or20client : ℤ → Bool
  /-- What `statusprintf` would return. -/
  queueResult : ℤ → Bytes → ℤ
  /-- `fill_diag_runtime`. -/
  runtime : DiagRuntime

/-! ### Tokens -/

/-- `strupper`. -/
def strupper (line : Bytes) : Bytes := line.map toupper

/-- `MAX_COMMAND_TOKENS`. -/
def maxCommandTokens : ℕ := 16

/-- The words of a line. -/
def words (line : Bytes) : List Bytes := (line.splitOnP isspace).filter (· ≠ [])

/-- `tokenize_command`. -/
def tokenizeCommand (line : Bytes) : Option (List Bytes) :=
  if maxCommandTokens < (words line).length then none else some (words line)

/-- `next_token`: the token, if there is one left, and the tokens after it. -/
def nextToken (tokens : List Bytes) : Option Bytes × List Bytes := (tokens.head?, tokens.tail)

/-- `strtol` of a whole string, in base ten. -/
def strtol (text : Bytes) : Option ℤ :=
  let t := text.dropWhile isspace
  let t' := if t.head? = some 0x2d ∨ t.head? = some 0x2b then t.tail else t
  if t' = [] ∨ !t'.all isdigit then none
  else
    let n : ℕ := t'.foldl (fun n b => n * 10 + (b.toNat - 0x30)) 0
    some (if t.head? = some 0x2d then -n else n)

/-- `parse_decimal_int`. A number too large for a `long` is out of range in any case. -/
def parseDecimalInt (text : Bytes) (min max : ℤ) : Option ℤ :=
  match strtol text with
  | none => none
  | some parsed => if parsed < min ∨ max < parsed then none else some parsed

/-- `parse_hex_ulong`. A lone prefix passes the check of the digits, and `strtoul` then
refuses it. -/
def parseHexUlong (text : Bytes) (digits : Option ℕ) : Option ℕ :=
  let p := if text.take 2 = ascii "0X" then text.drop 2 else text
  if text = [] ∨ !p.all isxdigit then none
  else if digits.isSome ∧ digits ≠ some p.length then none
  else if p = [] then none
  else some (p.foldl (fun n b => n * 16 + xdigitVal b) 0)

/-- `gethexdata`: the bytes, or nothing if an argument is not a byte or there are more
than the buffer holds; and the tokens that are left. -/
def gethexdata : ℕ → List Bytes → Option Bytes × List Bytes
  | _, [] => (some [], [])
  | 0, _ :: tokens => (none, tokens)
  | room + 1, parm :: tokens =>
      match parseHexUlong parm none with
      | none => (none, tokens)
      | some parsed =>
          if 0xff < parsed then (none, tokens)
          else
            let r := gethexdata room tokens
            (r.1.map (parsed.toUInt8 :: ·), r.2)

/-- `getfunc`: the code of a function token, or `-1`. -/
def getfunc (tokens : List Bytes) : ℤ × List Bytes :=
  let (command, rest) := nextToken tokens
  ((command.bind fun c => funccommands.findIdx? (· = c)).elim (-1) (↑·), rest)

/-- `getrffunc`. -/
def getrffunc (rf8bitaddr : Bool) (tokens : List Bytes) : ℤ × List Bytes :=
  let (command, rest) := nextToken tokens
  let table := if rf8bitaddr then secRemoteKeyNames8bitaddr else secEventNameslongaddr
  ((command.bind (findFunct table)).elim (-1) (·.toNat), rest)

/-- `getparam`. -/
def getparam (tokens : List Bytes) : ℤ × List Bytes :=
  let (param, rest) := nextToken tokens
  ((param.bind fun p => parseDecimalInt p 0 255).getD (-1), rest)

/-- A parameter, or its default. -/
def getparamOr (default : ℤ) (tokens : List Bytes) : ℤ × List Bytes :=
  let (param, rest) := getparam tokens
  (if param = -1 then default else param, rest)

/-- The house and the unit of a device address, each `-1` if there is none
(`getdeviceaddr`). -/
def getdeviceaddr (tokens : List Bytes) : (ℤ × ℤ) × List Bytes :=
  let (parm, rest) := nextToken tokens
  let addr : ℤ × ℤ :=
    match parm with
    | none => (-1, -1)
    | some [] => (-1, -1)
    | some (h :: t) =>
        if 3 < (h :: t).length ∨ !ishouse h then (-1, -1)
        else if t = [] then (houseIndex h, -1)
        else
          match parseDecimalInt t 1 16 with
          | none => (-1, -1)
          | some parsed => (houseIndex h, parsed - 1)
  (addr, rest)

/-- `getrfaddr`: whether the address is a short one, and the address. -/
def getrfaddr (tokens : List Bytes) : Option (Bool × ℕ) × List Bytes :=
  let (parm, rest) := nextToken tokens
  let addr :=
    match parm with
    | none => none
    | some parm =>
        if parm.take 2 = ascii "0x" ∨ parm.take 2 = ascii "0X" then
          match parseHexUlong parm none with
          | none => none
          | some rfaddr => if 0xff < rfaddr then none else some (true, rfaddr)
        else (parseHexUlong parm (some 6)).map fun rfaddr => (false, rfaddr)
  (addr, rest)

/-- `gethousecodes`: a bit for each house. -/
def gethousecodes (tokens : List Bytes) : UInt16 × List Bytes :=
  let (parm, rest) := nextToken tokens
  let mask : UInt16 :=
    match parm with
    | none => 0
    | some parm =>
        if parm = ascii "*" then 0xFFFF
        else parm.foldl (fun rc house =>
          if ishouse house then rc ||| (1 <<< (house - 0x41).toUInt16) else rc) 0
  (mask, rest)

/-! ### Power-line commands -/

section PowerLine

variable (env : Env)

/-- A house code, in the high half of a byte, with a unit code or a function. -/
def houseByte (table : List UInt8) (house : ℤ) (low : UInt8) : UInt8 :=
  (tableAt table house <<< 4) ||| low

/-- The low byte of a number, negative numbers in two's complement. -/
def lowByte (n : ℤ) : UInt8 := (n % 256).toNat.toUInt8

/-- `pl_tx_houseunit`. -/
def plTxHouseunit (house unit : ℤ) : X10M Unit := do
  let hu := houseByte x10housecode house (tableAt x10housecode unit)
  cm15aDecodePlc (-1) (Memory.ofBytes [0x00, 0x02, 0x00, hu] env.stack) 4
  x10Write [0x04, hu]

/-- `pl_tx_extended_code_1`. -/
def plTxExtendedCode1 (house unit command subcmd param : ℤ) : X10M Unit := do
  let buf := [0x00, 0x05, 0x07, houseByte x10housecode house 0x7, tableAt x10housecode unit,
    lowByte param, (lowByte command <<< 4) ||| (lowByte subcmd &&& 0x0F)]
  cm15aDecodePlc (-1) (Memory.ofBytes buf env.stack) 7
  x10Write (buf.drop 2)

/-- `pl_tx_housefunc`. -/
def plTxHousefunc (house func param : ℤ) : X10M Unit :=
  if func = 4 ∨ func = 5 then do
    let dims := lowByte ((param % 32) * 8)
    let hf := houseByte x10housecode house (lowByte func)
    cm15aDecodePlc (-1) (Memory.ofBytes [0x00, 0x03, 0x02, dims ||| 0x01, hf] env.stack) 5
    -- the two bytes after the prefix are sent in the other order
    x10Write [0x06, hf, 0x06 ||| dims]
  else if func = 16 then do
    let buf := [0x00, 0x05, 0x07, houseByte x10housecode house 0x7, 0x02, lowByte param, 0x31]
    cm15aDecodePlc (-1) (Memory.ofBytes buf env.stack) 7
    x10Write (buf.drop 2)
  else do
    let hf := houseByte x10housecode house (lowByte func)
    cm15aDecodePlc (-1) (Memory.ofBytes [0x00, 0x02, 0x01, hf] env.stack) 4
    x10Write [0x06, hf]

end PowerLine

/-! ### Radio commands -/

section Radio

variable (env : Env) (relay : ℤ → Bytes → X10M Unit)

/-- A radio frame is decoded, so that it is reported, and sent. -/
def rfTx (buf : Bytes) : X10M Unit := do
  cm15aDecodeRf env relay (-1) (Memory.ofBytes buf env.stack) buf.length
  x10Write (if env.cm19a then buf.drop 1 else buf)

/-- `rfsec_tx`. -/
def rfsecTx (rf8bitaddr : Bool) (rfaddr : ℕ) (func : UInt8) : X10M Unit :=
  if rf8bitaddr then
    rfTx env relay
      [0xEB, 0x20, rfaddr.toUInt8, rfaddr.toUInt8 ^^^ 0x0f, func, ~~~func]
  else
    let addr1 := (rfaddr / 65536).toUInt8
    rfTx env relay
      [0xEB, 0x29, addr1, addr1 ^^^ 0x0f, func, ~~~func, (rfaddr / 256).toUInt8, rfaddr.toUInt8]

/-- The unit and function byte of a standard radio frame, if the function has one and
has the unit it needs. -/
def rfFuncByte (unit func : ℤ) : Option UInt8 :=
  let u := lowByte unit
  let unitBits := ((u &&& 0x04) <<< 4) ||| ((u &&& 0x02) <<< 2) ||| ((u &&& 0x01) <<< 4)
  if func = 3 then if unit < 0 then none else some (0x20 ||| unitBits)
  else if func = 2 then if unit < 0 then none else some unitBits
  else if func = 4 then some 0x98
  else if func = 5 then some 0x88
  else none

/-- `rf_tx_houseunitfunc`. -/
def rfTxHouseunitfunc (house unit func : ℤ) : X10M Unit :=
  if house < 0 then pure ()
  else
    let hu := houseByte x10housecoderf house ((lowByte unit &&& 0x08) >>> 1)
    match rfFuncByte unit func with
    | none => pure ()
    | some fb => rfTx env relay [0xeb, 0x20, hu, ~~~hu, fb, ~~~fb]

end Radio

/-! ### Diagnostics -/

section Diagnostics

variable (c : Ctx)

/-- `MOCHAD_REDUX_VERSION`. -/
def mochadReduxVersion : Bytes := ascii "0.5.0"

/-- `MOCHAD_UPSTREAM_BASE`. -/
def mochadUpstreamBase : Bytes := ascii "mochad 0.1.18"

/-- `send_diag_json`. -/
def sendDiagJson (fd : ℤ) (json : Option Bytes) : X10M ℤ :=
  let text := match json with
    | none => jsonObject [("ok", jsonBool false),
        ("error", jsonString (ascii "diagnostic output too large"))] ++ ascii "\n"
    | some json => json ++ ascii "\n"
  do
    statusprintf fd text
    pure (c.queueResult fd text)

/-- `uptime_seconds`. -/
def uptimeSeconds (env : Env) : X10M ℕ :=
  if env.startTime = 0 then pure 0
  else do
    let now ← timeNow env
    pure (now - env.startTime)

/-- The members that every identifying reply begins with. -/
def jsonIdentity : List (String × Bytes) :=
  [("ok", jsonBool true), ("name", jsonString (ascii "mochad-redux"))]

/-- `mochad_diag_json_hello`. -/
def mochadDiagJsonHello : Bytes := jsonObject (jsonIdentity ++ [
  ("daemon", jsonString (ascii "mochad-redux")), ("version", jsonString mochadReduxVersion),
  ("upstream_base", jsonString mochadUpstreamBase), ("diagnostics", jsonBool true)])

/-- A JSON array of texts. -/
def jsonArray (texts : List String) : Bytes :=
  0x5b :: List.intercalate [0x2c] (texts.map fun t => jsonString (ascii t)) ++ [0x5d]

/-- `mochad_diag_json_capabilities`. -/
def mochadDiagJsonCapabilities (rawData : Bool) : Bytes := jsonObject [("ok", jsonBool true),
  ("commands", jsonArray ["hello", "capabilities", "health", "clients", "config", "version"]),
  ("legacy_commands", jsonArray
    ["pl", "rf", "rfsec", "rfcam", "pt", "rftopl", "rftorf", "st", "getstatus", "getstatussec"]),
  ("json", jsonBool true), ("single_line", jsonBool true), ("raw_data", jsonBool rawData)]

/-- `mochad_diag_json_health`. -/
def mochadDiagJsonHealth (uptime : ℕ) : Bytes := jsonObject (jsonIdentity ++ [
  ("version", jsonString mochadReduxVersion), ("upstream_base", jsonString mochadUpstreamBase),
  ("uptime_seconds", fmtNat uptime), ("usb_connected", jsonBool c.runtime.usbConnected),
  ("controller", jsonString c.runtime.controller),
  ("endpoints_ready", jsonBool c.runtime.endpointsReady),
  ("transfers_ready", jsonBool c.runtime.transfersReady),
  ("clients_total",
    fmtNat (c.runtime.clientsMain + c.runtime.clientsXml + c.runtime.clientsOpenremote)),
  ("usb_tx", jsonObject [("out_completed", fmtNat c.runtime.usbOutCompleted),
    ("ack_received", fmtNat c.runtime.usbAckReceived),
    ("ack_timeout", fmtNat c.runtime.usbAckTimeout),
    ("unexpected_one_byte", fmtNat c.runtime.usbUnexpectedOneByte)]),
  ("bind_address", jsonString c.env.config.bindAddress),
  ("listeners", jsonListeners c.env.config)])

/-- `mochad_diag_json_clients`. -/
def mochadDiagJsonClients : Bytes := jsonObject [("ok", jsonBool true),
  ("clients", jsonObject [("main", fmtNat c.runtime.clientsMain),
    ("xml", fmtNat c.runtime.clientsXml), ("openremote", fmtNat c.runtime.clientsOpenremote),
    ("total", fmtNat
      (c.runtime.clientsMain + c.runtime.clientsXml + c.runtime.clientsOpenremote))]),
  ("max_clients", fmtNat c.runtime.maxClients),
  ("next_client_id", fmtNat c.runtime.nextClientId)]

/-- `mochad_diag_json_version`. -/
def mochadDiagJsonVersion : Bytes := jsonObject (jsonIdentity ++ [
  ("daemon", jsonString (ascii "mochad-redux")), ("version", jsonString mochadReduxVersion),
  ("upstream_base", jsonString mochadUpstreamBase)])

/-- The buffer of each diagnostic reply. -/
def diagBufferSize : ℕ := 1024

/-- `mochad_diag_hello`. -/
def mochadDiagHello (fd : ℤ) : X10M ℤ :=
  sendDiagJson c fd (checkedSnprintf diagBufferSize mochadDiagJsonHello)

/-- `mochad_diag_capabilities`. -/
def mochadDiagCapabilities (fd : ℤ) : X10M ℤ :=
  sendDiagJson c fd
    (checkedSnprintf diagBufferSize (mochadDiagJsonCapabilities c.env.config.rawData))

/-- `mochad_diag_health`. -/
def mochadDiagHealth (fd : ℤ) : X10M ℤ := do
  let uptime ← uptimeSeconds c.env
  sendDiagJson c fd (checkedSnprintf diagBufferSize (mochadDiagJsonHealth c uptime))

/-- `mochad_diag_clients`, which reads the clock as `mochad_diag_health` does. -/
def mochadDiagClients (fd : ℤ) : X10M ℤ := do
  let _ ← uptimeSeconds c.env
  sendDiagJson c fd (checkedSnprintf diagBufferSize (mochadDiagJsonClients c))

/-- `mochad_diag_config`. -/
def mochadDiagConfig (fd : ℤ) : X10M ℤ :=
  sendDiagJson c fd (mochadConfigSnprintJson diagBufferSize c.env.config)

/-- `mochad_diag_version`. -/
def mochadDiagVersion (fd : ℤ) : X10M ℤ :=
  sendDiagJson c fd (checkedSnprintf diagBufferSize mochadDiagJsonVersion)

end Diagnostics

/-! ### Commands -/

/-- `DOMAINPOLICY`, whose terminator is sent with it. -/
def domainPolicy : Bytes :=
  ascii "<?xml version=\"1.0\"?><!DOCTYPE cross-domain-policy SYSTEM \"http://www.adobe.com/xml/dtds/cross-domain-policy.dtd\"><cross-domain-policy><allow-access-from domain=\"*.chumby.com\" to-ports=\"1100\" /></cross-domain-policy>" ++ [0]

/-- The request that the policy answers. -/
def policyRequest : Bytes := ascii "<POLICY-FILE-REQUEST/>"

/-- The commands. -/
inductive Command
  | hello | capabilities | health | clients | config | version
  | pl | rf | rfsec | rfcam | pt | rftopl | rftorf | st
  | info | quit | help | question | hex | getstatus | getstatussec
  deriving DecidableEq, Repr

/-- The names of the commands. -/
def commandNames : List (Bytes × Command) :=
  [(ascii "HELLO", .hello), (ascii "CAPABILITIES", .capabilities), (ascii "HEALTH", .health),
    (ascii "CLIENTS", .clients), (ascii "CONFIG", .config), (ascii "VERSION", .version),
    (ascii "PL", .pl), (ascii "RF", .rf), (ascii "RFSEC", .rfsec), (ascii "RFCAM", .rfcam),
    (ascii "PT", .pt), (ascii "RFTOPL", .rftopl), (ascii "RFTORF", .rftorf), (ascii "ST", .st),
    (ascii "INFO", .info), (ascii "QUIT", .quit), (ascii "HELP", .help), (ascii "?", .question),
    (ascii "HEX", .hex), (ascii "GETSTATUS", .getstatus),
    (ascii "GETSTATUSSEC", .getstatussec)]

/-- The command that a token names. -/
def commandOf (name : Bytes) : Option Command :=
  (commandNames.find? fun e => e.1 = name).map (·.2)

/-- How a command ends: it returns a value, or it leaves tokens, which there should be
none of. -/
inductive Flow
  | ret (value : ℤ)
  | rest (tokens : List Bytes)
  deriving DecidableEq

section Commands

variable (c : Ctx) (relay : ℤ → Bytes → X10M Unit) (fd : ℤ)

/-- OpenRemote clients are told that a transmitting command was read. -/
def or20ok : X10M Unit :=
  if c.or20client fd then statusprintf fd (ascii "ok\n\r") else pure ()

/-- A command whose address has a house and no unit. -/
def plHouse (house : ℤ) (tokens : List Bytes) : X10M Flow := do
  let (func, tokens) := getfunc tokens
  if func < 0 ∨ func = 16 then pure (.ret (-1))
  else if func = 4 ∨ func = 5 then
    let (param, tokens) := getparamOr 1 tokens
    plTxHousefunc c.env house func param
    pure (.rest tokens)
  else
    plTxHousefunc c.env house func 0
    pure (.rest tokens)

/-- A command whose address has a unit. -/
def plUnit (house unit : ℤ) (tokens : List Bytes) : X10M Flow := do
  let (func, tokens) := getfunc tokens
  if func < 0 then
    plTxHouseunit c.env house unit
    pure (.ret (-1))
  else if func = 16 then
    let (param, tokens) := getparamOr 1 tokens
    plTxExtendedCode1 c.env house unit 3 1 param
    pure (.rest tokens)
  else if func = 4 ∨ func = 5 then
    let (param, tokens) := getparamOr 1 tokens
    plTxHouseunit c.env house unit
    plTxHousefunc c.env house func param
    pure (.rest tokens)
  else if func = 7 then
    let (extcommand, tokens) := getparamOr 0 tokens
    let (subcmd, tokens) := getparamOr 0 tokens
    let (data, tokens) := getparamOr 0 tokens
    plTxExtendedCode1 c.env house unit extcommand subcmd data
    pure (.rest tokens)
  else
    plTxHouseunit c.env house unit
    plTxHousefunc c.env house func 0
    pure (.rest tokens)

/-- `PL`. -/
def plCommand (tokens : List Bytes) : X10M Flow := do
  or20ok c fd
  let ((house, unit), tokens) := getdeviceaddr tokens
  if house < 0 then pure (.ret (-1))
  else if unit < 0 then plHouse c house tokens
  else plUnit c house unit tokens

/-- `RF`. -/
def rfCommand (tokens : List Bytes) : X10M Flow := do
  or20ok c fd
  let ((house, unit), tokens) := getdeviceaddr tokens
  if house < 0 then pure (.ret (-1))
  else
    let (func, tokens) := getfunc tokens
    if func < 0 then pure (.ret (-1))
    else
      rfTxHouseunitfunc c.env relay house unit func
      pure (.rest tokens)

/-- `RFSEC`. -/
def rfsecCommand (tokens : List Bytes) : X10M Flow := do
  or20ok c fd
  match getrfaddr tokens with
  | (none, _) => pure (.ret (-1))
  | (some (rf8bitaddr, rfaddr), tokens) =>
      let (func, tokens) := getrffunc rf8bitaddr tokens
      if func < 0 then pure (.ret (-1))
      else
        rfsecTx c.env relay rf8bitaddr rfaddr (lowByte func)
        pure (.rest tokens)

/-- `RFCAM`. -/
def rfcamCommand (tokens : List Bytes) : X10M Flow := do
  or20ok c fd
  let ((house, _), tokens) := getdeviceaddr tokens
  if house < 0 then pure (.ret (-1))
  else
    match nextToken tokens with
    | (none, _) => pure (.ret (-1))
    | (some arg1, tokens) =>
        match findCamRemoteCommand arg1 with
        | some rfcamkey =>
            let h := tableAt x10housecoderf house <<< 4
            rfTx c.env relay [0xeb, 0x14, h + (rfcamkey - 0x2B), rfcamkey, h]
            pure (.rest tokens)
        | none =>
            sockprintf fd (ascii "Invalid command " ++ arg1 ++ ascii "\n\r")
            pure (.rest tokens)

/-- `PT`. -/
def ptCommand (tokens : List Bytes) : X10M Flow := do
  or20ok c fd
  match gethexdata 8 tokens with
  | (none, _) => pure (.ret (-1))
  | (some [], _) => pure (.ret (-1))
  | (some (b :: bs), tokens) =>
      x10Write (b :: bs)
      pure (.rest tokens)

/-- `RFTOPL`. -/
def rftoplCommand (tokens : List Bytes) : X10M Flow := do
  or20ok c fd
  let (mask, tokens) := gethousecodes tokens
  modify fun s => { s with rfToPl16 := mask }
  sockprintf fd (ascii "RfToPl " ++ fmtPad 16 4 mask.toNat ++ ascii "\n\r")
  pure (.rest tokens)

/-- What `RFTORF` prints. -/
def rftorfReply : X10M Unit := do
  let mask ← gets (·.rfToRf16)
  sockprintf fd (ascii "RfToRf " ++ fmtPad 16 4 mask.toNat ++ ascii "\n\r")

/-- `RFTORF`. -/
def rftorfCommand (tokens : List Bytes) : X10M Flow := do
  or20ok c fd
  match nextToken tokens with
  | (none, tokens) =>
      rftorfReply fd
      pure (.rest tokens)
  | (some arg1, tokens) =>
      match parseDecimalInt arg1 0 65535 with
      | none => pure (.ret (-1))
      | some value =>
          modify fun s => { s with rfToRf16 := value.toNat.toUInt16 }
          rftorfReply fd
          pure (.rest tokens)

/-- `ST`. -/
def stCommand (tokens : List Bytes) : X10M Flow := do
  let (arg1, tokens) := nextToken tokens
  if arg1 = some (ascii "0") then modify huaSecInit else huaShow c.env fd
  pure (.rest tokens)

/-- `HEX`. -/
def hexCommand (tokens : List Bytes) : X10M Flow :=
  match nextToken tokens with
  | (none, _) => pure (.ret (-1))
  | (some arg, _) => do
      sockprintf fd (ascii "Hex " ++ arg ++ ascii "\r\n")
      pure (.ret 0)

/-- `GETSTATUS`. -/
def getstatusCommand (tokens : List Bytes) : X10M Flow := do
  let ((house, unit), tokens) := getdeviceaddr tokens
  if 0 ≤ house ∧ 0 ≤ unit then
    let (arg1, tokens) := nextToken tokens
    match arg1 with
    | some arg1 =>
        if arg1 = ascii "XDIM" then
          let xdim ← gets fun s => huaGetstatusXdim s house unit
          statusprintf fd (fmtNat xdim.toNat ++ ascii "\n\r")
        else statusprintf fd (ascii "-1\n\r")
    | none =>
        let status ← gets fun s => huaGetstatus s house unit
        statusprintf fd ((if status = 0x31 then ascii "on" else ascii "off") ++ ascii "\n\r")
    pure (.rest tokens)
  else pure (.ret (-1))

/-- `GETSTATUSSEC`. -/
def getstatussecCommand (tokens : List Bytes) : X10M Flow :=
  match getrfaddr tokens with
  | (none, _) => pure (.ret (-1))
  | (some (rf8bitaddr, rfaddr), tokens) => do
      let status ← gets fun s => huaGetstatusSec s rf8bitaddr rfaddr
      statusprintf fd ((if status = 1 then ascii "on" else ascii "off") ++ ascii "\n\r")
      pure (.rest tokens)

/-- The value of a diagnostic command is returned as it is. -/
def diagCommand (diag : X10M ℤ) : X10M Flow := do
  let value ← diag
  pure (.ret value)

/-- A command that prints one line and ignores its arguments. -/
def printCommand (text : Bytes) : X10M Flow := do
  sockprintf fd text
  pure (.ret 0)

/-- One command, with the tokens after its name. -/
def runCommand (command : Command) (tokens : List Bytes) : X10M Flow :=
  match command with
  | .hello => diagCommand (mochadDiagHello c fd)
  | .capabilities => diagCommand (mochadDiagCapabilities c fd)
  | .health => diagCommand (mochadDiagHealth c fd)
  | .clients => diagCommand (mochadDiagClients c fd)
  | .config => diagCommand (mochadDiagConfig c fd)
  | .version => diagCommand (mochadDiagVersion c fd)
  | .pl => plCommand c fd tokens
  | .rf => rfCommand c relay fd tokens
  | .rfsec => rfsecCommand c relay fd tokens
  | .rfcam => rfcamCommand c relay fd tokens
  | .pt => ptCommand c fd tokens
  | .rftopl => rftoplCommand c fd tokens
  | .rftorf => rftorfCommand c fd tokens
  | .st => stCommand c fd tokens
  | .info => printCommand fd (ascii "Info\r\n")
  | .quit => printCommand fd (ascii "Quit\r\n")
  | .help => printCommand fd (ascii "Help\r\n")
  | .question => printCommand fd (ascii "Help ?\r\n")
  | .hex => hexCommand fd tokens
  | .getstatus => getstatusCommand fd tokens
  | .getstatussec => getstatussecCommand fd tokens

/-- A command that returned nothing itself fails if it left tokens. -/
def finish : Flow → X10M ℤ
  | .ret value => pure value
  | .rest [] => pure 0
  | .rest (_ :: _) => do
      sockprintf fd (ascii "Invalid command: unexpected argument\n\r")
      pure (-1)

/-- The tokens of a line as a command. -/
def processTokens : List Bytes → X10M ℤ
  | [] => pure 0
  | name :: tokens =>
      match commandOf name with
      | none => pure (-1)
      | some command => do
          let flow ← runCommand c relay fd command tokens
          finish fd flow

/-- `processcommandline`, but for the calls that the decoder makes to it. -/
def processWith (line : Bytes) : X10M ℤ :=
  let aLine := strupper line
  if aLine = policyRequest then do
    sendAll fd domainPolicy
    pure 0
  else
    match tokenizeCommand aLine with
    | none => do
        sockprintf fd (ascii "Invalid command: too many arguments\n\r")
        pure (-1)
    | some tokens => processTokens c relay fd tokens

end Commands

/-- The interpreter, to a depth of calls back from the decoder. -/
def processDepth (c : Ctx) : ℕ → ℤ → Bytes → X10M ℤ
  | 0, _, _ => pure 0
  | n + 1, fd, line =>
      processWith c (fun fd line => do let _ ← processDepth c n fd line) fd line

/-- **The interpreter**, `processcommandline`. -/
def processcommandline (c : Ctx) : ℤ → Bytes → X10M ℤ := processDepth c 2

/-! ### The depth is never reached -/

/-- The lines that the decoder relays. -/
def IsPl (line : Bytes) : Prop := ∃ rest, line = ascii "PL " ++ rest

theorem strupper_append (a b : Bytes) : strupper (a ++ b) = strupper a ++ strupper b :=
  List.map_append

theorem words_pl (rest : Bytes) : words (ascii "PL " ++ rest) = ascii "PL" :: words rest := by
  have hpl : ∀ b ∈ ascii "PL", isspace b = false := by decide
  have hsplit := List.splitOnP_append_cons_of_forall_mem hpl 0x20 (by decide) rest
  rw [show ascii "PL " ++ rest = ascii "PL" ++ 0x20 :: rest from rfl, words, hsplit]
  rfl

/-- A relayed line is the command `PL`. -/
theorem processWith_eq_pl (c : Ctx) (relay : ℤ → Bytes → X10M Unit) (fd : ℤ) {line : Bytes}
    (h : IsPl line) :
    processWith c relay fd line =
      match tokenizeCommand (strupper line) with
      | none => do
          sockprintf fd (ascii "Invalid command: too many arguments\n\r")
          pure (-1)
      | some tokens => plCommand c fd tokens.tail >>= finish fd := by
  obtain ⟨rest, rfl⟩ := h
  have hupper : strupper (ascii "PL " ++ rest) = ascii "PL " ++ strupper rest := by
    rw [strupper_append]
    rfl
  have hne : ascii "PL " ++ strupper rest ≠ policyRequest := fun h =>
    absurd (congrArg List.head? h) (by simp [ascii, policyRequest])
  have hcmd : commandOf (ascii "PL") = some .pl := by decide
  simp only [processWith, hupper, if_neg hne, tokenizeCommand, words_pl]
  split_ifs
  · rfl
  · simp only [processTokens, hcmd, runCommand, List.tail_cons]

/-- It makes no radio frame, so nothing is relayed from it. -/
theorem processWith_pl (c : Ctx) (relay relay' : ℤ → Bytes → X10M Unit) (fd : ℤ) {line : Bytes}
    (h : IsPl line) : processWith c relay fd line = processWith c relay' fd line := by
  rw [processWith_eq_pl c relay fd h, processWith_eq_pl c relay' fd h]

/-- The radio decoder looks at its relay only for the lines that it relays. -/
theorem cm15aDecodeRf_congr (env : Env) {relay relay' : ℤ → Bytes → X10M Unit}
    (h : ∀ fd line, IsPl line → relay fd line = relay' fd line) :
    cm15aDecodeRf env relay = cm15aDecodeRf env relay' := by
  have hdim : decodeRfDim env relay = decodeRfDim env relay' := by
    funext fd buf len housechar name
    simp only [decodeRfDim]
    rw [h fd _ ⟨[housechar] ++ ascii " " ++ fmtStr name, by simp⟩]
  have hswitch : decodeRfSwitch env relay = decodeRfSwitch env relay' := by
    funext fd buf len housechar unitint off name
    simp only [decodeRfSwitch]
    rw [h fd _ ⟨[housechar] ++ fmtNat unitint ++ ascii " " ++ fmtStr name, by simp⟩]
  funext fd buf len
  simp only [cm15aDecodeRf, decodeRfStandard, hdim, hswitch]

theorem processWith_congr (c : Ctx) {relay relay' : ℤ → Bytes → X10M Unit}
    (h : ∀ fd line, IsPl line → relay fd line = relay' fd line) :
    processWith c relay = processWith c relay' := by
  have htx : rfTx c.env relay = rfTx c.env relay' := by
    funext buf
    simp only [rfTx, cm15aDecodeRf_congr c.env h]
  have hrun : runCommand c relay = runCommand c relay' := by
    funext fd command tokens
    cases command <;>
      simp only [runCommand, rfCommand, rfsecCommand, rfcamCommand, rfTxHouseunitfunc, rfsecTx, htx]
  have htokens : processTokens c relay = processTokens c relay' := by
    funext fd tokens
    cases tokens with
    | nil => rfl
    | cons name tokens => simp only [processTokens, hrun]
  funext fd line
  simp only [processWith, htokens]

/-- **The depth is never reached**: any greater one gives the same interpreter. -/
theorem processDepth_eq (c : Ctx) (n : ℕ) : processDepth c (n + 2) = processcommandline c := by
  refine processWith_congr c fun fd line h => ?_
  have hdepth : processDepth c (n + 1) fd line = processDepth c 1 fd line :=
    processWith_pl c _ _ fd h
  simp only [hdepth]

end Mochad
