/-!
# Sample configurations
-/

namespace LayoutTech.Command.Template

def minimal : String :=
  "\n".intercalate [
    "apiVersion: 100monkeys.ai/v1",
    "kind: RegistryConfig",
    "metadata:",
    "  name: lytech",
    "spec:",
    "  technology_paths:",
    "    - ./technologies",
    ""]

/-- Everything that can be configured, with comments. -/
def withExamples : String :=
  "\n".intercalate [
    "# lytech registry configuration",
    "#",
    "# Discovery order: --config, LYTECH_CONFIG_PATH, ./lytech-config.yaml,",
    "# ~/.lytech/config.yaml, /etc/lytech/config.yaml",
    "apiVersion: 100monkeys.ai/v1",
    "kind: RegistryConfig",
    "metadata:",
    "  name: lytech",
    "  version: \"1.0.0\"",
    "  labels:",
    "    site: example",
    "",
    "spec:",
    "  # Directories scanned recursively for *.lyt technology files.",
    "  # Files are registered in path order.",
    "  technology_paths:",
    "    - ./technologies",
    "    - /opt/pdks/techs",
    "",
    "  import:",
    "    # reject: keep the registered technology and report the duplicate",
    "    # replace: overwrite the registered technology in place",
    "    # Override with LYTECH_COLLISION_POLICY.",
    "    collision_policy: reject",
    "",
    "  observability:",
    "    logging:",
    "      # Override with --log-level or LYTECH_LOG_LEVEL",
    "      level: info",
    "      # text or json",
    "      format: text",
    ""]

end LayoutTech.Command.Template
