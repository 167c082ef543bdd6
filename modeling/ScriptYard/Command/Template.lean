/-!
# Templates of scripts

A template is the text of a script in YAML in which the name of the script stands in some places.
The name is written there as it is; what a reader makes of it is its own affair.
-/

namespace ScriptYard

inductive ScriptTemplate where
  /-- A script that waits for a button and taps it. -/
  | basic
  /-- A script for the case that another one stalls. -/
  | exception
  /-- A script that starts an application. -/
  | startup
deriving DecidableEq, Repr, Inhabited

namespace ScriptTemplate

def ofName? : String → Option ScriptTemplate
  | "basic" => some .basic
  | "exception" => some .exception
  | "startup" => some .startup
  | _ => none

def lines (name : String) : ScriptTemplate → List String
  | .basic => [
    "id: " ++ name,
    "name: " ++ name,
    "description: Polls for a button and taps it once found",
    "priority: 0",
    "max_retries: 3",
    "variables:",
    "  device_screen: /sdcard/" ++ name ++ "_screen.png",
    "  screen: /tmp/" ++ name ++ "_screen.png",
    "actions:",
    "  - type: loop",
    "    interval: 2.0",
    "    max_iterations: 30",
    "    actions:",
    "      - type: plugin_call",
    "        capability: shell",
    "        action: exec",
    "        params:",
    "          command: adb",
    "          args: [\"shell\", \"screencap\", \"-p\", \"$device_screen\"]",
    "      - type: plugin_call",
    "        capability: shell",
    "        action: exec",
    "        params:",
    "          command: adb",
    "          args: [\"pull\", \"$device_screen\", \"$screen\"]",
    "      - type: condition",
    "        condition_type: template_match",
    "        template_path: templates/" ++ name ++ "_button.png",
    "        input_image: $screen",
    "        threshold: 0.8",
    "        break_on_true: true",
    "        on_true:",
    "          - type: plugin_call",
    "            capability: shell",
    "            action: exec",
    "            params:",
    "              command: adb",
    "              args: [\"shell\", \"input\", \"tap\", \"$match_x\", \"$match_y\"]",
    "  - type: set_variable",
    "    name: finished",
    "    value: true"]
  | .exception => [
    "id: " ++ name,
    "name: " ++ name,
    "description: Recovery script queued by the watchdog when a script in the group stalls",
    "max_retries: 1",
    "actions:",
    "  - type: plugin_call",
    "    capability: shell",
    "    action: exec",
    "    params:",
    "      command: adb",
    "      args: [\"shell\", \"input\", \"keyevent\", \"KEYCODE_BACK\"]",
    "  - type: wait",
    "    duration: 2.0",
    "  - type: plugin_call",
    "    capability: shell",
    "    action: exec",
    "    params:",
    "      command: adb",
    "      args: [\"shell\", \"input\", \"keyevent\", \"KEYCODE_HOME\"]"]
  | .startup => [
    "id: " ++ name,
    "name: " ++ name,
    "description: Launches the target application and waits for it to settle",
    "autostart: true",
    "priority: 10",
    "# exception_script: <id of a script created with --template exception>",
    "variables:",
    "  package: com.example.app",
    "actions:",
    "  - type: plugin_call",
    "    capability: shell",
    "    action: exec",
    "    params:",
    "      command: adb",
    "      args: [\"shell\", \"monkey\", \"-p\", \"$package\", \"1\"]",
    "  - type: wait",
    "    duration: 5.0",
    "  - type: condition",
    "    condition_type: variable_compare",
    "    variable: package",
    "    operator: \"!=\"",
    "    value: \"\"",
    "    on_false:",
    "      - type: restart"]

def text (t : ScriptTemplate) (name : String) : String :=
  String.join ((t.lines name).map (· ++ "\n"))

end ScriptTemplate

end ScriptYard
